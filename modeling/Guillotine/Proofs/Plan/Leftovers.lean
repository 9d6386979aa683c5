import Guillotine.Proofs.Plan.Solutions

/-! Leftovers of a solution, of space and of items. An item that went on a later sheet, or on none,
would not have fitted what remains of an earlier sheet of its material. An item is on no sheet only
if it does not fit an empty one, or if as many sheets of its material were filled as may be opened:
a new sheet always takes an item, so the work on a material never ends because one stayed empty. -/
namespace Guillotine

variable {m : Material} {catalog : Catalog} {saw : Saw} {s : Settings} {pieces : List Piece}
  {elapsed : Duration} {plan : Plan}

namespace Packer

/-! ### Sheets that stay empty -/

/-- Filling sheets as `fillSheets` does it, except that `giveUp` is done with the items waiting
where a sheet takes none of them. -/
def fillSheetsElse (giveUp : List Item → Packing (List Layout × List Item)) (m : Material)
    (saw : Saw) (s : Settings) :
    (allowed index : Nat) → List Item → Packing (List Layout × List Item)
  | 0, _, waiting => return ([], waiting)
  | allowed + 1, index, waiting =>
    if waiting.isEmpty then return ([], [])
    else do
      let b ← ExceptT.mk (pure (Board.opened m (UInt64.ofNat index) saw s))
      let (b, rest) ← fill b waiting
      if b.placed.isEmpty then giveUp rest
      else do
        let layout ← b.finish
        let (layouts, rest) ← fillSheetsElse giveUp m saw s allowed (index + 1) rest
        return (layout :: layouts, rest)

theorem fillSheets_eq_giveUp (allowed index : Nat) (waiting : List Item) :
    fillSheets m saw s allowed index waiting =
      fillSheetsElse (fun rest => return ([], rest)) m saw s allowed index waiting := by
  induction allowed generalizing index waiting with
  | zero => rfl
  | succ allowed ih =>
    rw [fillSheets, fillSheetsElse]
    simp only [ih]

/-- With items that fit an empty sheet it does not matter what is done where a sheet stays empty,
because none does. -/
theorem fillSheetsElse_congr (giveUp giveUp' : List Item → Packing (List Layout × List Item))
    {u : Rect} (hu : saw.usable m = .ok u) (allowed index : Nat) {waiting : List Item}
    (hfits : ∀ i ∈ waiting, i.fitsIn u = true) :
    fillSheetsElse giveUp m saw s allowed index waiting =
      fillSheetsElse giveUp' m saw s allowed index waiting := by
  induction allowed generalizing index waiting with
  | zero => rfl
  | succ allowed ih =>
    rw [fillSheetsElse, fillSheetsElse]
    split
    next => rfl
    next hwaiting =>
      rw [List.isEmpty_iff] at hwaiting
      apply Packing.bind_congr_returns
      intro b hopened
      apply Packing.bind_congr_returns
      rintro ⟨b', rest⟩ hfill
      rw [Packing.returns_ofExcept] at hopened
      rw [Packing.returns_lift] at hfill
      obtain rfl := (Board.Reached.opened hopened).usable_eq hu
      have hsome := fill_opened hopened hfill hwaiting hfits
      obtain ⟨taken, -, hperm, -⟩ := fill_spec hfill (.opened hopened)
      dsimp only
      rw [if_neg (by simpa using hsome), if_neg (by simpa using hsome),
        ih (index + 1) fun i hi => hfits i (hperm.subset (List.mem_append_right _ hi))]

end Packer

open Packer

/-! ### Samples -/

/-- Two sheets at most. -/
def doorSettings : Settings := { Settings.standard with maxSheets := 2 }

/-- Doors of which one sheet takes one. -/
def doorPieces : List Piece := [⟨"door", "oak", 5, 6, 3, false, 0, none, none⟩]

def doorPlan : Plan where
  layouts :=
    [⟨sampleMaterial, 1, ⟨1, 1, 8, 6⟩, [⟨"door_1", none, 1, 1, 5, 6, false⟩], [⟨7, 1, 2, 6⟩]⟩,
      ⟨sampleMaterial, 2, ⟨1, 1, 8, 6⟩, [⟨"door_2", none, 1, 1, 5, 6, false⟩], [⟨7, 1, 2, 6⟩]⟩]
  unplaced := [⟨"door_3", "oak", 5, 6, false, 0, none, none⟩]

/-- Two doors are cut from one sheet each, and the third one is left over. -/
theorem solve_doors :
    Packing.Returns (solve doorSettings sampleCatalog sampleSaw doorPieces ⟨0, 0⟩) doorPlan := by
  have hrank : ranked doorPieces = doorPieces.flatMap Piece.copies :=
    List.mergeSort_of_pairwise (by decide)
  unfold solve pack
  rw [hrank]
  rfl

/-! ### Leftovers -/

/-- Say which items were placed on each sheet, in order. Then of two sheets of one material, no
remainder of the earlier one has room for an item of the later one; and no remainder has room for an
item of its material that is on no sheet. -/
theorem solve_noRoom (h : Packing.Returns (solve s catalog saw pieces elapsed) plan) :
    ∃ takens, plan.Packed catalog saw s pieces takens ∧
      ((takens.zip plan.layouts).Pairwise fun a b =>
        a.2.material.code = b.2.material.code → ∀ i ∈ b.1, a.2.NoRoom i) ∧
      ∀ l ∈ plan.layouts, ∀ i ∈ plan.unplaced, i.material = l.material.code → l.NoRoom i := by
  obtain ⟨takens, hpacked, hdealt, -⟩ := pack_spec (returns_pack_of_solve h)
  exact ⟨takens, hpacked, hdealt.inTurn, hdealt.noRoom⟩

theorem solve_noRoom_doors :
    Packing.Returns (solve doorSettings sampleCatalog sampleSaw doorPieces ⟨0, 0⟩) doorPlan ∧
      ∃ takens, doorPlan.Packed sampleCatalog sampleSaw doorSettings doorPieces takens ∧
        ((takens.zip doorPlan.layouts).Pairwise fun a b =>
          a.2.material.code = b.2.material.code → ∀ i ∈ b.1, a.2.NoRoom i) ∧
        ∀ l ∈ doorPlan.layouts, ∀ i ∈ doorPlan.unplaced,
          i.material = l.material.code → l.NoRoom i :=
  ⟨solve_doors, solve_noRoom solve_doors⟩

/-- An item of a demand has the code of one of the pieces. -/
theorem exists_piece_of_mem_copies {i : Item} (hi : i ∈ pieces.flatMap Piece.copies) :
    ∃ p ∈ pieces, i.material = p.material := by
  obtain ⟨p, hp, hip⟩ := List.mem_flatMap.1 hi
  obtain ⟨k, -, rfl⟩ := List.mem_map.1 hip
  exact ⟨p, hp, rfl⟩

/-- An item is on no sheet only if it does not fit an empty sheet of the material that is demanded
under its code, or if as many sheets of this material were filled as may be opened. Each sheet has
something on it, and the work on a material that `packMaterial` does would be the same whatever were
done where a new sheet stays empty. -/
theorem solve_leftovers (h : Packing.Returns (solve s catalog saw pieces elapsed) plan) :
    (∀ i ∈ plan.unplaced, ∃ m u, catalog.demanded pieces i.material = some m ∧
      ((∀ code n, catalog code = some n → n.code = code) → catalog i.material = some m) ∧
      saw.usable m = .ok u ∧ (i.fitsIn u = false ∨
        (plan.layouts.filter fun l => l.material.code = i.material).length =
          s.maxSheets.toNat)) ∧
      (∀ l ∈ plan.layouts, l.placed ≠ []) ∧
      ∀ (giveUp : List Item → Packing (List Layout × List Item)) (m : Material) (u : Rect)
        (items : List Item), saw.usable m = .ok u →
        fillSheets m saw s s.maxSheets.toNat 1 (items.filter fun i => i.fitsIn u) =
          fillSheetsElse giveUp m saw s s.maxSheets.toNat 1
            (items.filter fun i => i.fitsIn u) := by
  obtain ⟨takens, hpacked, -, hexcused⟩ := pack_spec (returns_pack_of_solve h)
  refine ⟨fun i hi => ?_, fun l hl => ?_, fun giveUp m u items hu => ?_⟩
  · obtain ⟨m, u, hdemanded, hreason⟩ := hexcused i hi
    obtain ⟨p, hp, hcode⟩ := exists_piece_of_mem_copies
      (hpacked.perm.subset (List.mem_append_right _ hi))
    refine ⟨m, u, hdemanded, fun hcatalog => ?_, hreason⟩
    rw [hcode, ← Catalog.demanded_eq hcatalog hp, ← hcode, hdemanded]
  · obtain ⟨taken, -, hfilled⟩ := exists_filled hpacked.filled hl
    exact hfilled.occupied
  · rw [fillSheets_eq_giveUp]
    exact fillSheetsElse_congr _ _ hu _ _ fun i hi => (List.mem_filter.1 hi).2

theorem solve_leftovers_doors :
    Packing.Returns (solve doorSettings sampleCatalog sampleSaw doorPieces ⟨0, 0⟩) doorPlan ∧
      (∀ i ∈ doorPlan.unplaced, ∃ m u, sampleCatalog.demanded doorPieces i.material = some m ∧
        ((∀ code n, sampleCatalog code = some n → n.code = code) →
          sampleCatalog i.material = some m) ∧
        sampleSaw.usable m = .ok u ∧ (i.fitsIn u = false ∨
          (doorPlan.layouts.filter fun l => l.material.code = i.material).length =
            doorSettings.maxSheets.toNat)) ∧
      (∀ l ∈ doorPlan.layouts, l.placed ≠ []) ∧
      ∀ (giveUp : List Item → Packing (List Layout × List Item)) (m : Material) (u : Rect)
        (items : List Item), sampleSaw.usable m = .ok u →
        fillSheets m sampleSaw doorSettings doorSettings.maxSheets.toNat 1
            (items.filter fun i => i.fitsIn u) =
          fillSheetsElse giveUp m sampleSaw doorSettings doorSettings.maxSheets.toNat 1
            (items.filter fun i => i.fitsIn u) :=
  ⟨solve_doors, solve_leftovers solve_doors⟩

end Guillotine
