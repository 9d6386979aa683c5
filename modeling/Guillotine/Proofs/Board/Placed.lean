import Guillotine.Proofs.Board.Reached

/-! What a placement says of the item that was placed. Along the placements on a sheet, the items
taken and the placements made correspond one by one. -/
namespace Guillotine

/-- Whether an item has an extent along both axes. -/
def Item.Solid (i : Item) : Prop := 0 < i.width.toNat ∧ 0 < i.height.toNat

/-- However an item lies, it has its own extents, exchanged if it is turned. It is turned only if
it may be, follows no grain and is no square. -/
theorem Item.mem_orientations_iff {i : Item} {o : Orientation} :
    o ∈ i.orientations ↔ o = ⟨i.width, i.height, false⟩ ∨
      (o = ⟨i.height, i.width, true⟩ ∧ i.canRotate = true ∧ i.grain = none ∧
        i.width ≠ i.height) := by
  unfold Item.orientations
  split
  next hturn =>
    simp only [Bool.and_eq_true, Option.isNone_iff_eq_none, bne_iff_ne] at hturn
    simp [hturn]
  next hturn =>
    simp only [Bool.and_eq_true, Option.isNone_iff_eq_none, bne_iff_ne] at hturn
    simp only [List.mem_singleton, iff_self_or]
    rintro ⟨-, hrot, hgrain, hside⟩
    exact absurd ⟨⟨hgrain, hrot⟩, hside⟩ hturn

theorem Item.Solid.orientation {i : Item} (hi : i.Solid) {o : Orientation}
    (h : o ∈ i.orientations) : 0 < o.width.toNat ∧ 0 < o.height.toNat := by
  rcases Item.mem_orientations_iff.1 h with rfl | ⟨rfl, -⟩
  · exact hi
  · exact hi.symm

/-- Whether a placement is one of an item. -/
structure Placement.IsOf (p : Placement) (i : Item) : Prop where
  id : p.item = i.id
  label : p.label = i.label
  upright : p.rotated = false → p.width = i.width ∧ p.height = i.height
  turned : p.rotated = true → p.width = i.height ∧ p.height = i.width
  mayTurn : p.rotated = true → i.canRotate = true ∧ i.grain = none ∧ i.width ≠ i.height

namespace Board

variable {b b' : Board} {i : Item} {spot : Spot} {used : Rect} {p : Placement}

theorem Put.isOf (h : Put b i spot used b' p) : p.IsOf i := by
  rw [h.placement]
  rcases Item.mem_orientations_iff.1 (FreeList.findSpot_orientation h.found) with ho | ⟨ho, hmay⟩
  · constructor <;> simp [ho]
  · constructor <;> simp [ho, hmay]

/-- A sheet holds the items placed on it, in order. -/
theorem Reached.holds {m : Material} {saw : Saw} {s : Settings} {items : List Item}
    (h : Reached m saw s items b) :
    List.Forall₂ (fun i p => p.IsOf i) items b.placed := by
  induction h with
  | opened h =>
    obtain ⟨u, -, rfl⟩ := opened_eq_ok_iff.1 h
    exact List.Forall₂.nil
  | placed _ h ih =>
    obtain ⟨spot, used, hput⟩ := place_returns_some_iff.1 h
    rw [hput.board]
    exact List.rel_append ih (List.Forall₂.cons hput.isOf List.Forall₂.nil)

theorem Reached.eq_nil {m : Material} {saw : Saw} {s : Settings} {items : List Item}
    (h : Reached m saw s items b) (hnone : b.placed = []) : items = [] := by
  have hheld := h.holds
  rw [hnone] at hheld
  exact List.forall₂_nil_right_iff.1 hheld

end Board

end Guillotine
