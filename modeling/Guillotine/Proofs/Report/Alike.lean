import Guillotine.Proofs.Plan.Alike
import Guillotine.Report.OfPlan

/-! Plans that are reported alike. A report repeats the tags of the items and does not mention how
thick a material is, so the reports on two plans that differ in these only differ in tags only. -/
namespace Guillotine

open List (Forall₂)

/-- Two reports on a sheet are the same but for tags. -/
structure BoardReport.Alike (T : Tag → Tag → Prop) (b c : BoardReport) : Prop where
  material : b.material = c.material
  index : b.index = c.index
  cuts : Forall₂ (Placement.Alike T) b.cuts c.cuts
  utilization : b.utilization = c.utilization
  offcuts : b.offcuts = c.offcuts

/-- Two reported items have related tags and are the same otherwise. -/
structure Unplaced.Alike (T : Tag → Tag → Prop) (u w : Unplaced) : Prop where
  tag : T (u.id, u.label) (w.id, w.label)
  material : u.material = w.material
  width : u.width = w.width
  height : u.height = w.height

/-- Two reports are the same but for tags, for the time that packing took, and for whether they were
kept. -/
structure Report.Alike (T : Tag → Tag → Prop) (r q : Report) : Prop where
  project : r.summary.project = q.summary.project
  sheets : r.summary.boards = q.summary.boards
  totalCost : r.summary.totalCost = q.summary.totalCost
  wastePercentage : r.summary.wastePercentage = q.summary.wastePercentage
  costs : r.costs = q.costs
  boards : Forall₂ (BoardReport.Alike T) r.boards q.boards
  unplaced : Forall₂ (Unplaced.Alike T) r.unplaced q.unplaced
  digest : r.digest = q.digest

variable {T : Tag → Tag → Prop} {l k : Layout} {m n : Material} {i j : Item}

/-! ### Reports with the same tags -/

theorem Placement.Alike.eq {p q : Placement} (h : p.Alike Eq q) : p = q := by
  obtain ⟨htag, hrect, hrotated⟩ := h
  simp only [Placement.rect, Rect.mk.injEq, Prod.mk.injEq] at htag hrect
  cases p
  cases q
  simp_all

theorem BoardReport.Alike.eq {b c : BoardReport} (h : b.Alike Eq c) : b = c := by
  obtain ⟨hmaterial, hindex, hcuts, hutilization, hoffcuts⟩ := h
  have hcuts := hcuts.imp fun _ _ hpq => hpq.eq
  rw [List.forall₂_eq_eq_eq] at hcuts
  cases b
  cases c
  simp_all

theorem Unplaced.Alike.eq {u w : Unplaced} (h : u.Alike Eq w) : u = w := by
  obtain ⟨htag, hmaterial, hwidth, hheight⟩ := h
  cases u
  cases w
  simp_all

/-- Reports that are alike with the same tags are the same, but for the time that packing took and
for whether they were kept. -/
theorem Report.Alike.eq {r q : Report} (h : r.Alike Eq q) :
    { r with cached := q.cached, summary := { r.summary with time := q.summary.time } } = q := by
  obtain ⟨hproject, hsheets, htotal, hwaste, hcosts, hboards, hunplaced, hdigest⟩ := h
  have hboards := hboards.imp fun _ _ hbc => hbc.eq
  have hunplaced := hunplaced.imp fun _ _ huw => huw.eq
  rw [List.forall₂_eq_eq_eq] at hboards hunplaced
  obtain ⟨⟨_, _, _, _, _⟩, _, _, _, _, _⟩ := r
  obtain ⟨⟨_, _, _, _, _⟩, _, _, _, _, _⟩ := q
  simp_all

/-! ### Reports on plans -/

theorem Layout.Alike.report (h : l.Alike T k) (side : Length) :
    Agree (BoardReport.Alike T) (l.report side) (k.report side) := by
  have hefficiency : l.efficiency = k.efficiency := by
    simp only [Layout.efficiency, h.usedArea, h.material.area]
  rw [Layout.report, Layout.report, hefficiency]
  apply (Agree.of_eq rfl).bind
  rintro efficiency _ rfl
  exact .ok ⟨h.material.code, h.index, h.placed, rfl, by rw [h.remainders]⟩

theorem Item.Alike.unplaced (h : i.Alike T j) : i.unplaced.Alike T j.unplaced :=
  ⟨h.tag, h.material, h.width, h.height⟩

theorem Material.Alike.costRow (h : m.Alike n) (boards : Nat) :
    m.costRow boards = n.costRow boards := by
  simp only [Material.costRow, h.code, h.cost]

theorem countRuns_alike {ms ns : List Material} (h : Forall₂ Material.Alike ms ns) :
    Forall₂ (fun a b => a.1.Alike b.1 ∧ a.2 = b.2) (countRuns ms) (countRuns ns) := by
  induction h with
  | nil => exact .nil
  | cons hmn _ ih =>
    rw [countRuns, countRuns]
    generalize countRuns _ = as at ih ⊢
    generalize countRuns _ = bs at ih ⊢
    cases ih with
    | nil => exact .cons ⟨hmn, rfl⟩ .nil
    | @cons a b as bs hab hrest =>
      obtain ⟨k, x⟩ := a
      obtain ⟨k', y⟩ := b
      obtain ⟨hkk', rfl⟩ : k.Alike k' ∧ x = y := hab
      dsimp only
      rw [hmn.code, hkk'.code]
      split
      · exact .cons ⟨hmn, rfl⟩ hrest
      · exact .cons ⟨hmn, rfl⟩ (.cons ⟨hkk', rfl⟩ hrest)

namespace Plan

variable {p q : Plan}

theorem costs_alike (h : p.Alike T q) : p.costs = q.costs := by
  have hruns : Forall₂ (fun a b => a.1.Alike b.1 ∧ a.2 = b.2) p.sheetsPerMaterial
      q.sheetsPerMaterial :=
    countRuns_alike (List.rel_map (fun _ _ hl => hl.material) h.layouts)
  have hrows : (p.sheetsPerMaterial.map fun run => run.1.costRow run.2) =
      q.sheetsPerMaterial.map fun run => run.1.costRow run.2 := by
    apply map_eq_of_forall₂ _ hruns
    intro a b ⟨hmaterial, hcount⟩
    rw [hmaterial.costRow, hcount]
  exact congrArg (fun rows => Costs.mk rows (sumOfFloats (rows.map CostRow.totalCost))) hrows

theorem wastePercentage_alike (h : p.Alike T q) :
    Agree Eq p.wastePercentage q.wastePercentage := by
  rw [wastePercentage, wastePercentage, isEmpty_eq_of_forall₂ h.layouts]
  split
  · exact .ok rfl
  · apply (efficiency_alike h).bind
    rintro efficiency _ rfl
    exact .ok rfl

/-- Plans that are alike are reported alike, however long they took and whatever the project of the
first one is called. -/
theorem report_alike (h : p.Alike T q) (project project' : String) (elapsed elapsed' : Duration)
    (side : Length) : Agree (fun r r' => r.summary.project = project ∧
        Report.Alike T { r with summary := { r.summary with project := project' } } r')
      (p.report project elapsed side) (q.report project' elapsed' side) := by
  rw [report, report, costs_alike h, sheetCount, sheetCount, h.layouts.length_eq]
  apply (Agree.mapM h.layouts fun _ _ hl => hl.report side).bind
  intro boards boards' hboards
  apply (wastePercentage_alike h).bind
  rintro waste _ rfl
  have hunplaced := List.rel_map (fun _ _ hi => Item.Alike.unplaced hi) h.unplaced
  exact .ok ⟨rfl, rfl, rfl, rfl, rfl, rfl, hboards, hunplaced, rfl⟩

end Plan

end Guillotine
