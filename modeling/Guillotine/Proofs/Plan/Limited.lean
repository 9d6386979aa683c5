import Guillotine.Proofs.Leads
import Guillotine.Proofs.Plan.Leftovers
import Guillotine.Proofs.Plan.Separate

/-! Opening fewer sheets. The sheets of a material are filled one after the other, and the limit
only says when to stop. So under a lower limit the same sheets are filled up to it, and the items
waiting then are left over, among them all those that are left over under a higher limit. -/
namespace Guillotine

variable {m : Material} {catalog : Catalog} {saw : Saw} {s : Settings} {pieces : List Piece}
  {elapsed : Duration} {plan : Plan} {limit : UInt64}

namespace Packer

/-- The items that no sheet takes stay in order. -/
theorem Course.sublist {allowed index : Nat} {waiting left : List Item} {layouts : List Layout}
    (h : Course m saw s allowed index waiting layouts left) : left.Sublist waiting := by
  induction h with
  | stopped => exact List.Sublist.refl _
  | done => exact List.Sublist.slnil
  | stuck _ hopened hfill =>
    obtain ⟨taken, -, hparts, -⟩ := fill_parted hfill (.opened hopened)
    exact hparts.sublist_right
  | sheet _ hopened hfill _ _ ih =>
    obtain ⟨taken, -, hparts, -⟩ := fill_parted hfill (.opened hopened)
    exact ih.trans hparts.sublist_right

/-- How filling at most `limit` sheets compares with filling more: the first sheets are the same,
and what is left over after more sheets is among what is left over. -/
def Fewer (limit : Nat) (more fewer : List Layout × List Item) : Prop :=
  fewer.1 = more.1.take limit ∧ more.2.Sublist fewer.2

/-- Filling sheets under a lower limit stops earlier. -/
theorem fillSheets_fewer {allowed allowed' : Nat} (hle : allowed ≤ allowed') (index : Nat)
    (waiting : List Item) :
    Packing.Leads (Fewer allowed) (fillSheets m saw s allowed' index waiting)
      (fillSheets m saw { s with maxSheets := limit } allowed index waiting) := by
  induction allowed generalizing allowed' index waiting with
  | zero =>
    rintro ⟨layouts, left⟩ h
    exact ⟨([], waiting), Packing.returns_pure.2 rfl, List.take_zero.symm,
      (course_of_returns h).sublist⟩
  | succ allowed ih =>
    cases allowed' with
    | zero => exact absurd hle (Nat.not_succ_le_zero allowed)
    | succ allowed' =>
      rw [fillSheets, fillSheets]
      split
      next => exact .pure ⟨List.take_nil.symm, List.Sublist.refl _⟩
      next =>
        apply (Packing.Leads.refl
          (ExceptT.mk (pure (Board.opened m (UInt64.ofNat index) saw s)))).bind
        rintro b _ - rfl
        apply (Packing.Leads.refl (liftM (fill b waiting))).bind
        rintro ⟨b', rest⟩ _ - rfl
        dsimp only
        split
        next => exact .pure ⟨List.take_nil.symm, List.Sublist.refl _⟩
        next =>
          apply (Packing.Leads.refl (liftM b'.finish)).bind
          rintro l _ - rfl
          apply (ih (Nat.le_of_succ_le_succ hle) (index + 1) rest).bind
          rintro ⟨layouts, left⟩ ⟨layouts', left'⟩ - ⟨hlayouts, hleft⟩
          exact .pure ⟨congrArg (l :: ·) hlayouts, hleft⟩

/-- The items of one material are packed on fewer sheets under a lower limit. -/
theorem packMaterial_fewer (hle : limit ≤ s.maxSheets) (items : List Item) :
    Packing.Leads (Fewer limit.toNat) (packMaterial m saw s items)
      (packMaterial m saw { s with maxSheets := limit } items) := by
  rintro ⟨layouts, left⟩ h
  obtain ⟨u, rest, hu, hfill, rfl⟩ := returns_packMaterial_iff.1 h
  obtain ⟨⟨layouts', rest'⟩, hfill', hlayouts, hrest⟩ :=
    fillSheets_fewer (UInt64.le_iff_toNat_le.1 hle) 1 _ _ hfill
  exact ⟨_, returns_packMaterial_iff.2 ⟨u, rest', hu, hfill', rfl⟩, hlayouts,
    hrest.append_left _⟩

/-- Where groups of items are packed, they are packed under a lower limit, too. -/
theorem packGroups_fewer (hle : limit ≤ s.maxSheets) (known : List Material)
    (groups : List (String × List Item)) :
    Packing.Leads (fun _ _ => True) (packGroups known saw s groups)
      (packGroups known saw { s with maxSheets := limit } groups) := by
  induction groups with
  | nil => exact .pure trivial
  | cons g groups ih =>
    rw [packGroups, packGroups]
    cases known.find? fun m => m.code = g.1 with
    | none => exact .fault
    | some m =>
      apply (packMaterial_fewer hle g.2).bind
      intro _ _ _ _
      apply ih.bind
      exact fun _ _ _ _ => .pure trivial

end Packer

open Packer

/-- Raising the limit only extends a plan. Where a demand is packed, it is packed under any lower
limit on the sheets of a material, too. For every material the sheets are then the first ones of
before, as many as the lower limit allows, and what was left over is still left over, in the same
order. -/
theorem solve_limited (h : Packing.Returns (solve s catalog saw pieces elapsed) plan)
    (hle : limit ≤ s.maxSheets) (elapsed' : Duration) :
    ∃ plan', Packing.Returns
        (solve { s with maxSheets := limit } catalog saw pieces elapsed') plan' ∧
      ∀ code, (plan'.ofMaterial code).layouts =
          (plan.ofMaterial code).layouts.take limit.toNat ∧
        (plan.ofMaterial code).unplaced.Sublist (plan'.ofMaterial code).unplaced := by
  rw [returns_solve_iff, returns_pack_iff] at h
  obtain ⟨known, hknown, hplan⟩ := h
  obtain ⟨plan', hplan', -⟩ := packGroups_fewer hle known _ plan hplan
  have hcodes : ∀ g ∈ grouped (ranked pieces), ∀ i ∈ g.2, i.material = g.1 :=
    fun g hg => material_of_mem_grouped hg
  have hnodup := nodup_grouped (ranked pieces)
  refine ⟨plan', returns_solve_iff.2 (returns_pack_iff.2 ⟨known, hknown, hplan'⟩), fun code => ?_⟩
  by_cases hcode : ∃ i ∈ ranked pieces, i.material = code
  · obtain ⟨m, layouts, left, hm, hmaterial, hpart⟩ :=
      packGroups_group hplan hcodes hnodup (mem_grouped hcode)
    obtain ⟨m', layouts', left', hm', hmaterial', hpart'⟩ :=
      packGroups_group hplan' hcodes hnodup (mem_grouped hcode)
    obtain rfl := Option.some.inj (hm.symm.trans hm')
    obtain ⟨packed, hpacked, hfewer⟩ := packMaterial_fewer hle _ _ hmaterial
    obtain rfl := hpacked.unique hmaterial'
    rw [hpart, hpart']
    exact hfewer
  · -- Nothing of this material is demanded.
    have hnone : code ∉ (grouped (ranked pieces)).map Prod.fst := by
      rwa [map_fst_grouped, List.mem_eraseDups, List.mem_map]
    rw [(packGroups_codes hplan hcodes hnodup).ofMaterial_eq_nil hnone,
      (packGroups_codes hplan' hcodes hnodup).ofMaterial_eq_nil hnone]
    exact ⟨List.take_nil.symm, List.Sublist.refl _⟩

/-- One sheet is allowed in place of two. -/
theorem solve_limited_doors :
    Packing.Returns (solve doorSettings sampleCatalog sampleSaw doorPieces ⟨0, 0⟩) doorPlan ∧
      1 ≤ doorSettings.maxSheets ∧
      ∃ plan', Packing.Returns
          (solve { doorSettings with maxSheets := 1 } sampleCatalog sampleSaw doorPieces ⟨0, 0⟩)
          plan' ∧
        ∀ code, (plan'.ofMaterial code).layouts =
            (doorPlan.ofMaterial code).layouts.take (1 : UInt64).toNat ∧
          (doorPlan.ofMaterial code).unplaced.Sublist (plan'.ofMaterial code).unplaced :=
  ⟨solve_doors, by decide, solve_limited solve_doors (by decide) ⟨0, 0⟩⟩

end Guillotine
