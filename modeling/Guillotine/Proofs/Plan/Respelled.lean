import Guillotine.Proofs.Plan.Alike
import Guillotine.Proofs.Plan.Separate

/-! Demands spelled differently. A piece wanted in some quantity may as well be written as that many
pieces, and all pieces may have other ids and labels: the copies demanded are then the same but for
their names, in the same order, so that they are ranked, grouped and placed in the same way. The
check beforehand finds the same materials, since what is added to the demand is of materials that
are known already. -/
namespace Guillotine

open List (Forall₂)

variable {m : Material} {catalog : Catalog} {saw : Saw} {s : Settings} {pieces : List Piece}
  {elapsed : Duration} {plan : Plan}

/-- A step that runs like one that returns returns, too. -/
theorem Packing.Alike.exists_returns {α β : Type} {R : α → β → Prop} {x : Packing α}
    {y : Packing β} (h : Packing.Alike R x y) {a : α} (hx : Packing.Returns x a) :
    ∃ b, Packing.Returns y b ∧ R a b := by
  have hvalue := h.value
  rw [show x.run.value = .ok (.ok a) from hx] at hvalue
  unfold Packing.Returns Logged.Returns
  generalize y.run.value = v at hvalue ⊢
  cases hvalue with
  | ok hvalue =>
    cases hvalue with
    | ok hab => exact ⟨_, rfl, hab⟩

/-! ### Other spellings -/

namespace Piece

/-- Whether copies of two pieces are the same but for their names. -/
structure SameCut (p q : Piece) : Prop where
  material : q.material = p.material
  width : q.width = p.width
  height : q.height = p.height
  canRotate : q.canRotate = p.canRotate
  priority : q.priority = p.priority
  grain : q.grain = p.grain

/-- The ways to spell a piece differently: another name, or a piece by itself for each copy, under
any names. -/
inductive Respelled (p : Piece) : List Piece → Prop
  | renamed {q : Piece} (hcut : p.SameCut q) (hquantity : q.quantity = p.quantity) :
    Respelled p [q]
  | singled {qs : List Piece} (hcut : ∀ q ∈ qs, p.SameCut q ∧ q.quantity = 1)
    (hlength : qs.length = p.quantity.toNat) : Respelled p qs

variable {p q : Piece} {qs : List Piece}

/-- Copies are the same but for their names where their pieces are. -/
theorem SameCut.copy (h : p.SameCut q) (k n : Nat) :
    (p.copy k).Alike (fun _ _ => True) (q.copy n) :=
  ⟨trivial, h.material.symm, h.width.symm, h.height.symm, h.canRotate.symm, h.priority.symm,
    h.grain.symm⟩

/-- Another spelling demands the same copies but for their names. -/
theorem Respelled.copies (h : Respelled p qs) :
    Forall₂ (Item.Alike fun _ _ => True) p.copies (qs.flatMap Piece.copies) := by
  cases h with
  | @renamed q hcut hquantity =>
    rw [List.flatMap_singleton, Piece.copies, Piece.copies, hquantity, List.forall₂_map_left_iff,
      List.forall₂_map_right_iff, List.forall₂_same]
    exact fun k _ => hcut.copy _ _
  | singled hcut hlength =>
    have hsingle : ∀ q ∈ qs, q.copies = [q.copy 1] := by
      intro q hq
      rw [Piece.copies, (hcut q hq).2]
      rfl
    rw [List.flatMap_congr hsingle, ← List.map_eq_flatMap, Piece.copies,
      List.forall₂_map_left_iff, List.forall₂_map_right_iff, List.forall₂_iff_zip]
    refine ⟨by rw [List.length_range, hlength], fun {k q} hkq => ?_⟩
    exact (hcut q (List.of_mem_zip hkq).2).1.copy _ _

/-- A piece without flaws has none in another spelling, and is spelled with at least one piece. -/
theorem Respelled.flawless (h : Respelled p qs) (hp : p.flaw? = none) :
    qs ≠ [] ∧ ∀ q ∈ qs, q.flaw? = none ∧ q.material = p.material := by
  cases h with
  | @renamed q hcut hquantity =>
    have hq : q.flaw? = p.flaw? := by
      simp only [flaw?, hcut.width, hcut.height, hquantity]
    exact ⟨List.cons_ne_nil _ _, by simpa [hq, hp] using hcut.material⟩
  | singled hcut hlength =>
    have hpos := Packer.quantity_pos hp
    have hsides : ¬ (p.width = 0 ∨ p.height = 0) := by
      intro hside
      simp [flaw?, hside] at hp
    refine ⟨List.length_pos_iff.1 (hlength ▸ hpos), fun q hq => ?_⟩
    obtain ⟨hcut, hone⟩ := hcut q hq
    refine ⟨?_, hcut.material⟩
    rw [flaw?, hcut.width, hcut.height, hone, if_neg hsides]
    rfl

end Piece

namespace Packer

/-- Another spelling of pieces that pass the check passes it, and the same materials are found. -/
theorem check_respelled {known known' : List Material} {parts : List (List Piece)}
    (h : check catalog saw known pieces = .ok known')
    (hparts : Forall₂ Piece.Respelled pieces parts) :
    check catalog saw known parts.flatten = .ok known' := by
  induction hparts generalizing known with
  | nil => exact h
  | @cons p qs ps parts hqs _ ih =>
    obtain ⟨hp, m, hm, h⟩ := check_cons_eq_ok_iff.1 h
    obtain ⟨hsome, hflawless⟩ := hqs.flawless hp
    cases qs with
    | nil => exact absurd rfl hsome
    | cons q qs =>
      rw [List.forall_mem_cons] at hflawless
      rw [List.flatten_cons, List.cons_append, check_cons_eq_ok_iff, hflawless.1.2]
      refine ⟨hflawless.1.1, m, hm, ?_⟩
      -- The first piece of the spelling is checked as the piece is, and the others add nothing.
      split at h
      next hany =>
        rw [if_pos hany, check_again hm hany hflawless.2]
        exact ih h
      next hany =>
        rw [if_neg hany, check_again hm (by simp) hflawless.2]
        exact ⟨h.1, h.2.1, ih h.2.2⟩

/-- Another spelling of a demand that passes the check passes it, and the same materials are
found. -/
theorem checkAll_respelled {known : List Material} {parts : List (List Piece)}
    (h : checkAll catalog saw pieces = .ok known) (hparts : Forall₂ Piece.Respelled pieces parts) :
    checkAll catalog saw parts.flatten = .ok known := by
  unfold checkAll at h ⊢
  split at h
  next => cases h
  next hsome =>
    have hcheck := check_respelled h hparts
    have hflawless := (check_spec h (by simp)).pieces
    cases hparts with
    | nil => exact absurd rfl hsome
    | cons hqs _ =>
      obtain ⟨hne, -⟩ := hqs.flawless (hflawless _ List.mem_cons_self)
      rw [if_neg (by simp [hne]), hcheck]

/-- The copies of another spelling are ranked as the copies of the pieces are. -/
theorem ranked_respelled {parts : List (List Piece)}
    (hparts : Forall₂ Piece.Respelled pieces parts) :
    Forall₂ (Item.Alike fun _ _ => True) (ranked pieces) (ranked parts.flatten) := by
  refine forall₂_mergeSort (fun _ _ _ _ h h' => ranksAtLeast_alike h h') ?_
  induction hparts with
  | nil => exact .nil
  | cons hqs _ ih =>
    rw [List.flatMap_cons, List.flatten_cons, List.flatMap_append]
    exact List.rel_append hqs.copies ih

/-- The sheets of a packing are of the materials that are found under their codes. -/
theorem packGroups_found {known : List Material} {groups : List (String × List Item)}
    (h : Packing.Returns (packGroups known saw s groups) plan)
    (hcode : ∀ g ∈ groups, ∀ i ∈ g.2, i.material = g.1) (hnodup : (groups.map Prod.fst).Nodup) :
    ∀ l ∈ plan.layouts, known.find? (fun m => m.code = l.material.code) = some l.material := by
  intro l hl
  obtain ⟨⟨code, items⟩, hg, hlcode⟩ :=
    List.mem_map.1 ((packGroups_codes h hcode hnodup).layouts l hl)
  obtain rfl : code = l.material.code := hlcode
  obtain ⟨m, layouts, left, hm, hmaterial, hpart⟩ := packGroups_group h hcode hnodup hg
  obtain ⟨takens, -, hall, -⟩ := packMaterial_spec hmaterial fun i hi =>
    (hcode _ hg i hi).trans (Material.code_of_find? hm).symm
  have hmem : l ∈ (plan.ofMaterial l.material.code).layouts :=
    List.mem_filter.2 ⟨hl, decide_eq_true rfl⟩
  rw [hpart] at hmem
  rw [hm, hall l hmem]

end Packer

/-! ### Plans without names -/

def Placement.unnamed (p : Placement) : Placement := { p with item := "", label := none }

def Item.unnamed (i : Item) : Item := { i with id := "", label := none }

def Layout.unnamed (l : Layout) : Layout := { l with placed := l.placed.map Placement.unnamed }

/-- A plan without the ids and labels of its items. -/
def Plan.unnamed (p : Plan) : Plan where
  layouts := p.layouts.map Layout.unnamed
  unplaced := p.unplaced.map Item.unnamed

section Unnamed

variable {T : Tag → Tag → Prop} {i j : Item} {p q : Placement} {l k : Layout}

theorem Item.Alike.unnamed (h : i.Alike T j) : i.unnamed = j.unnamed := by
  simp only [Item.unnamed, h.material, h.width, h.height, h.canRotate, h.priority, h.grain]

theorem Placement.Alike.unnamed (h : p.Alike T q) : p.unnamed = q.unnamed := by
  obtain ⟨hx, hy, hwidth, hheight⟩ := Rect.mk.inj h.rect
  simp only [Placement.unnamed, hx, hy, hwidth, hheight, h.rotated]

theorem Layout.Alike.unnamed (h : l.Alike T k) (hmaterial : l.material = k.material) :
    l.unnamed = k.unnamed := by
  have hplaced := map_eq_of_forall₂ (fun _ _ hpq => hpq.unnamed) h.placed
  simp only [Layout.unnamed, hmaterial, h.index, h.usable, hplaced, h.remainders]

end Unnamed

open Packer

/-- A plan depends neither on names nor on how quantities are written: where a demand is packed,
every other spelling of it is packed, and the plan for it is the same but for the names of the
items. -/
theorem solve_respelled (h : Packing.Returns (solve s catalog saw pieces elapsed) plan)
    {parts : List (List Piece)} (hparts : Forall₂ Piece.Respelled pieces parts)
    (elapsed' : Duration) :
    ∃ plan', Packing.Returns (solve s catalog saw parts.flatten elapsed') plan' ∧
      plan'.unnamed = plan.unnamed := by
  rw [returns_solve_iff, returns_pack_iff] at h
  obtain ⟨known, hknown, h⟩ := h
  have hself : Forall₂ Material.Alike known known :=
    List.forall₂_same.2 fun m _ => ⟨rfl, rfl, rfl, rfl, rfl⟩
  obtain ⟨plan', h', halike⟩ := (packGroups_alike hself saw s
    (grouped_alike (ranked_respelled hparts))).exists_returns h
  refine ⟨plan', returns_solve_iff.2 (returns_pack_iff.2
    ⟨known, checkAll_respelled hknown hparts, h'⟩), ?_⟩
  have hfound := packGroups_found h (fun g hg => material_of_mem_grouped hg) (nodup_grouped _)
  have hfound' := packGroups_found h' (fun g hg => material_of_mem_grouped hg) (nodup_grouped _)
  obtain ⟨hlength, hlayouts⟩ := List.forall₂_iff_zip.1 halike.layouts
  have hsheets : Forall₂ (fun l k => l.unnamed = k.unnamed) plan.layouts plan'.layouts := by
    refine List.forall₂_iff_zip.2 ⟨hlength, fun {l k} hlk => ?_⟩
    obtain ⟨hl, hk⟩ := List.of_mem_zip hlk
    -- Both sheets are of the material that is found under their code.
    have hmaterial := (hfound l hl).symm
    rw [(hlayouts hlk).material.code, hfound' k hk] at hmaterial
    exact (hlayouts hlk).unnamed (Option.some.inj hmaterial)
  rw [Plan.unnamed, Plan.unnamed, map_eq_of_forall₂ (fun _ _ hlk => hlk) hsheets,
    map_eq_of_forall₂ (fun _ _ hij => hij.unnamed) halike.unplaced]

/-! ### A demand spelled differently -/

/-- The small demand, with each foot by itself and other names. -/
def sampleParts : List (List Piece) :=
  [[⟨"a", "oak", 9, 9, 1, true, 1, none, some "big"⟩],
    [⟨"b", "oak", 2, 7, 1, true, 0, none, none⟩],
    [⟨"c", "oak", 2, 2, 1, false, 0, none, none⟩,
      ⟨"c", "oak", 2, 2, 1, false, 0, none, some "last"⟩]]

theorem respelled_sample : Forall₂ Piece.Respelled samplePieces sampleParts := by
  refine .cons (.renamed ?_ rfl) (.cons (.renamed ?_ rfl) (.cons (.singled ?_ rfl) .nil))
  · exact ⟨rfl, rfl, rfl, rfl, rfl, rfl⟩
  · exact ⟨rfl, rfl, rfl, rfl, rfl, rfl⟩
  · simp only [List.forall_mem_cons, List.not_mem_nil, false_implies, implies_true, and_true]
    exact ⟨⟨rfl, rfl, rfl, rfl, rfl, rfl⟩, ⟨rfl, rfl, rfl, rfl, rfl, rfl⟩⟩

theorem solve_respelled_sample :
    Packing.Returns (solve .standard sampleCatalog sampleSaw samplePieces ⟨0, 0⟩) samplePlan ∧
      Forall₂ Piece.Respelled samplePieces sampleParts ∧
      ∃ plan', Packing.Returns
          (solve .standard sampleCatalog sampleSaw sampleParts.flatten ⟨0, 0⟩) plan' ∧
        plan'.unnamed = samplePlan.unnamed :=
  ⟨solve_sample, respelled_sample, solve_respelled solve_sample respelled_sample ⟨0, 0⟩⟩

end Guillotine
