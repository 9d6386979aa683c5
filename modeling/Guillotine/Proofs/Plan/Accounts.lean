import Guillotine.Proofs.Plan.Solutions

/-! The last check of a packing, that no item was lost, never fails. So a demand is packed just if
it is accepted and its items are packed group by group. -/
namespace Guillotine

variable {catalog : Catalog} {saw : Saw} {s : Settings} {pieces : List Piece}
  {elapsed : Duration} {plan : Plan}

namespace Packer

/-- There is one placement for each item that was placed. -/
theorem AllFilled.length_placed {takens : List (List Item)} {layouts : List Layout}
    (h : AllFilled saw s takens layouts) :
    (layouts.flatMap Layout.placed).length = takens.flatten.length := by
  induction h with
  | nil => rfl
  | cons hhead _ ih =>
    obtain ⟨b, hreached, rfl⟩ := hhead.reached
    rw [List.flatMap_cons, List.length_append, ih, List.flatten_cons, List.length_append,
      hreached.holds.length_eq]
    rfl

/-- Packing group by group accounts for all items. -/
theorem packGroups_accountsFor {known : List Material} {items : List Item}
    (h : Packing.Returns (packGroups known saw s (grouped items)) plan) :
    plan.accountsFor items.length = true := by
  obtain ⟨takens, hdealt, -⟩ := packGroups_spec h (fun g hg => material_of_mem_grouped hg)
    (nodup_grouped items)
  have hlength := (hdealt.perm.trans (grouped_perm items)).length_eq
  rw [List.length_append, ← hdealt.filled.length_placed] at hlength
  rw [Plan.accountsFor, Plan.placedCount, hlength, beq_self_eq_true]

end Packer

open Packer

/-- A demand is packed just if it is accepted and the groups of its items are packed. -/
theorem returns_pack_iff : Packing.Returns (pack s catalog saw pieces) plan ↔
    ∃ known, checkAll catalog saw pieces = .ok known ∧
      Packing.Returns (packGroups known saw s (grouped (ranked pieces))) plan := by
  unfold pack
  rw [Packing.returns_bind]
  refine exists_congr fun known => and_congr Packing.returns_ofExcept ?_
  rw [Packing.returns_bind]
  constructor
  · rintro ⟨_, -, h⟩
    obtain ⟨plan', hplan, h⟩ := Packing.returns_bind.1 h
    rw [if_pos (packGroups_accountsFor hplan)] at h
    obtain rfl := Packing.returns_pure.1 h
    exact hplan
  · intro h
    refine ⟨(), Packing.returns_lift.2 Logged.returns_noteChecked, Packing.returns_bind.2 ?_⟩
    refine ⟨plan, h, ?_⟩
    rw [if_pos (packGroups_accountsFor h)]
    exact Packing.returns_pure.2 rfl

/-- Packing and saying how it went returns just if packing returns. -/
theorem returns_solve_iff : Packing.Returns (solve s catalog saw pieces elapsed) plan ↔
    Packing.Returns (pack s catalog saw pieces) plan := by
  refine ⟨returns_pack_of_solve, fun h => ?_⟩
  unfold solve
  refine Packing.returns_bind.2 ⟨plan, h, Packing.returns_bind.2 ⟨(), ?_, ?_⟩⟩
  · exact Packing.returns_lift.2 Logged.returns_noteChecked
  · exact Packing.returns_pure.2 rfl

end Guillotine
