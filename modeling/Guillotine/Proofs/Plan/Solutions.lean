import Guillotine.Proofs.Board.Feasible
import Guillotine.Proofs.Plan.Run

/-! What holds of every solution: its sheets keep the trims and the blade's width, they can be cut
by a guillotine, and the items on them and those left over are the copies demanded, each once. -/
namespace Guillotine

open Region

variable {catalog : Catalog} {saw : Saw} {s : Settings} {pieces : List Piece}
  {elapsed : Duration} {plan : Plan}

namespace Layout

/-- Everything that takes room on a sheet. -/
def rects (l : Layout) : List Rect := l.placed.map Placement.rect ++ l.remainders

/-- Whether a sheet keeps its margins and distances, in exact arithmetic. -/
structure Sound (saw : Saw) (l : Layout) : Prop where
  usable : saw.usable l.material = .ok l.usable
  near : ∀ p ∈ l.placed, saw.leftTrim.toNat ≤ p.x.toNat ∧ saw.topTrim.toNat ≤ p.y.toNat
  far : ∀ p ∈ l.placed,
    p.x.toNat + p.width.toNat + saw.rightTrim.toNat ≤ l.material.width.toNat ∧
      p.y.toNat + p.height.toNat + saw.bottomTrim.toNat ≤ l.material.height.toNat
  apart : l.rects.Pairwise fun a b => Apart saw.kerf.toNat a.region b.region
  remainders : ∀ r ∈ l.remainders,
    0 < r.width.toNat ∧ 0 < r.height.toNat ∧ r.region.Inside l.usable.region

end Layout

/-! ### The sheets of a solution -/

/-- A sheet on which solid items were placed can be cut as it was finished. -/
theorem Packer.Filled.feasible {taken : List Item} {l : Layout} (h : Filled saw s taken l)
    (hsolid : ∀ i ∈ taken, i.Solid) :
    saw.usable l.material = .ok l.usable ∧
      Cuttable saw.kerf.toNat l.usable.region (l.rects.map Rect.region) ∧
      ∀ r ∈ l.remainders, 0 < r.width.toNat ∧ 0 < r.height.toNat := by
  obtain ⟨b, hreached, hb⟩ := h.reached
  obtain ⟨-, husable, hcutting⟩ := hreached.settled
  have hfeasible := hreached.feasible hsolid
  have hcut := hfeasible.cuttable
  rw [hcutting] at hcut
  rw [← hb] at husable ⊢
  exact ⟨husable, hcut, hfeasible.solid⟩

theorem Packer.exists_filled {takens : List (List Item)} {layouts : List Layout}
    (h : AllFilled saw s takens layouts) {l : Layout} (hl : l ∈ layouts) :
    ∃ taken ∈ takens, Filled saw s taken l := by
  induction h with
  | nil => cases hl
  | cons hhead _ ih =>
    rcases List.mem_cons.1 hl with rfl | hl
    · exact ⟨_, List.mem_cons_self, hhead⟩
    · obtain ⟨taken, htaken, hfilled⟩ := ih hl
      exact ⟨taken, List.mem_cons_of_mem _ htaken, hfilled⟩

theorem Plan.Packed.feasible {takens : List (List Item)} {l : Layout}
    (h : plan.Packed catalog saw s pieces takens) (hl : l ∈ plan.layouts) :
    saw.usable l.material = .ok l.usable ∧
      Cuttable saw.kerf.toNat l.usable.region (l.rects.map Rect.region) ∧
      ∀ r ∈ l.remainders, 0 < r.width.toNat ∧ 0 < r.height.toNat := by
  obtain ⟨taken, htaken, hfilled⟩ := Packer.exists_filled h.filled hl
  exact hfilled.feasible (h.solid taken htaken)

/-- What can be cut out of a usable region stays clear of the trims. -/
theorem Saw.Usable.clear {m : Material} {u : Rect} (h : saw.Usable m u) {r : Rect}
    (hr : r.region.Inside u.region) :
    (saw.leftTrim.toNat ≤ r.x.toNat ∧ saw.topTrim.toNat ≤ r.y.toNat) ∧
      r.x.toNat + r.width.toNat + saw.rightTrim.toNat ≤ m.width.toNat ∧
      r.y.toNat + r.height.toNat + saw.bottomTrim.toNat ≤ m.height.toNat := by
  have hw := h.width
  have hh := h.height
  simp only [Inside, Rect.region, h.x, h.y] at hr
  omega

/-- Every sheet of a solution keeps the trims clear, and whatever takes room on it is at least the
kerf away from all the rest. -/
theorem solve_sound (h : Packing.Returns (solve s catalog saw pieces elapsed) plan) :
    ∀ l ∈ plan.layouts, l.Sound saw := by
  intro l hl
  obtain ⟨takens, hpacked⟩ := solve_spec h
  obtain ⟨husable, hcut, hsolid⟩ := hpacked.feasible hl
  have hspec := Saw.usable_spec husable
  have hinside : ∀ r ∈ l.rects, r.region.Inside l.usable.region :=
    fun r hr => hcut.inside _ (List.mem_map_of_mem hr)
  have hclear : ∀ p ∈ l.placed, _ :=
    fun p hp => hspec.clear (hinside p.rect (List.mem_append_left _ (List.mem_map_of_mem hp)))
  refine ⟨husable, fun p hp => (hclear p hp).1, fun p hp => (hclear p hp).2, ?_, ?_⟩
  · exact List.pairwise_map.1 hcut.pairwise_apart
  · intro r hr
    exact ⟨(hsolid r hr).1, (hsolid r hr).2, hinside r (List.mem_append_right _ hr)⟩

theorem solve_sound_sample :
    Packing.Returns (solve .standard sampleCatalog sampleSaw samplePieces ⟨0, 0⟩) samplePlan ∧
      ∀ l ∈ samplePlan.layouts, l.Sound sampleSaw :=
  ⟨solve_sample, solve_sound solve_sample⟩

/-- Every sheet of a solution can be produced by cuts from edge to edge. -/
theorem solve_cuttable (h : Packing.Returns (solve s catalog saw pieces elapsed) plan) :
    ∀ l ∈ plan.layouts, Cuttable saw.kerf.toNat l.usable.region (l.rects.map Rect.region) := by
  intro l hl
  obtain ⟨takens, hpacked⟩ := solve_spec h
  exact (hpacked.feasible hl).2.1

theorem solve_cuttable_sample :
    Packing.Returns (solve .standard sampleCatalog sampleSaw samplePieces ⟨0, 0⟩) samplePlan ∧
      ∀ l ∈ samplePlan.layouts,
        Cuttable sampleSaw.kerf.toNat l.usable.region (l.rects.map Rect.region) :=
  ⟨solve_sample, solve_cuttable solve_sample⟩

/-! ### The items of a solution -/

/-- All placements of a plan, each with the material of its sheet. -/
def Plan.onSheets (p : Plan) : List (Material × Placement) :=
  p.layouts.flatMap fun l => l.placed.map fun q => (l.material, q)

/-- Whether an item is on a sheet of its material, as this placement says. -/
structure Item.OnSheet (catalog : Catalog) (i : Item) (q : Material × Placement) : Prop where
  isOf : q.2.IsOf i
  code : i.material = q.1.code
  listed : ∃ code, catalog code = some q.1

/-- A finished sheet has a placement of each item taken. -/
theorem Packer.Filled.onSheet {taken : List Item} {l : Layout} (h : Filled saw s taken l)
    (hl : ∃ code, catalog code = some l.material) :
    List.Forall₂ (Item.OnSheet catalog) taken (l.placed.map fun q => (l.material, q)) := by
  obtain ⟨b, hreached, rfl⟩ := h.reached
  rw [List.forall₂_map_right_iff]
  refine ((List.forall₂_and_left _ _).2 ⟨h.code, hreached.holds⟩).imp ?_
  rintro i q ⟨hcode, hof⟩
  exact ⟨hof, hcode, hl⟩

theorem Packer.forall₂_onSheet {takens : List (List Item)} {layouts : List Layout}
    (h : AllFilled saw s takens layouts)
    (hlisted : ∀ l ∈ layouts, ∃ code, catalog code = some l.material) :
    List.Forall₂ (Item.OnSheet catalog) takens.flatten
      (layouts.flatMap fun l => l.placed.map fun q => (l.material, q)) := by
  induction h with
  | nil => exact List.Forall₂.nil
  | cons hhead _ ih =>
    rw [List.forall_mem_cons] at hlisted
    exact List.rel_append (hhead.onSheet hlisted.1) (ih hlisted.2)

/-- The items on the sheets and those left over are the copies demanded, each once, and each item
on a sheet is placed there unaltered. -/
theorem solve_accounts (h : Packing.Returns (solve s catalog saw pieces elapsed) plan) :
    ∃ placed : List Item, (placed ++ plan.unplaced).Perm (pieces.flatMap Piece.copies) ∧
      List.Forall₂ (Item.OnSheet catalog) placed plan.onSheets := by
  obtain ⟨takens, hpacked⟩ := solve_spec h
  exact ⟨takens.flatten, hpacked.perm, Packer.forall₂_onSheet hpacked.filled hpacked.listed⟩

theorem solve_accounts_sample :
    Packing.Returns (solve .standard sampleCatalog sampleSaw samplePieces ⟨0, 0⟩) samplePlan ∧
      ∃ placed : List Item,
        (placed ++ samplePlan.unplaced).Perm (samplePieces.flatMap Piece.copies) ∧
        List.Forall₂ (Item.OnSheet sampleCatalog) placed samplePlan.onSheets :=
  ⟨solve_sample, solve_accounts solve_sample⟩

end Guillotine
