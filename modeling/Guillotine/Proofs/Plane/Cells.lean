import Guillotine.Proofs.Plane.Parts
import Mathlib.Algebra.BigOperators.Group.Finset.Piecewise
import Mathlib.Algebra.GroupWithZero.Nat
import Mathlib.Algebra.Order.BigOperators.Group.Finset
import Mathlib.Data.Finset.Prod
import Mathlib.Order.Interval.Finset.Nat

/-! Regions as sets of unit cells. Regions that lie within another one tile it if each of its cells
is in exactly one of them; then their areas add up to its area. A split whose blade destroys nothing
leaves no cell uncovered. -/
namespace Guillotine

namespace Region

open Finset

variable {r s u : Region} {rs : List Region} {i j : Nat}

/-- Whether the unit cell in column `i` and row `j` belongs to a region. -/
def HasCell (r : Region) (i j : Nat) : Prop :=
  (r.x ≤ i ∧ i < r.x + r.width) ∧ r.y ≤ j ∧ j < r.y + r.height

instance (r : Region) (i j : Nat) : Decidable (r.HasCell i j) := inferInstanceAs (Decidable (_ ∧ _))

/-- The unit cells of a region. -/
def cells (r : Region) : Finset (Nat × Nat) :=
  Ico r.x (r.x + r.width) ×ˢ Ico r.y (r.y + r.height)

def area (r : Region) : Nat := r.width * r.height

theorem mem_cells {c : Nat × Nat} : c ∈ r.cells ↔ r.HasCell c.1 c.2 := by
  simp [cells, HasCell]

theorem card_cells (r : Region) : r.cells.card = r.area := by
  simp [cells, area]

theorem HasCell.of_inside (h : r.HasCell i j) (hrs : r.Inside s) : s.HasCell i j := by
  unfold HasCell Inside at *
  omega

/-- Regions that are apart have no cell in common. -/
theorem HasCell.not_apart {gap : Nat} (hr : r.HasCell i j) (hs : s.HasCell i j) :
    ¬ Apart gap r s := by
  unfold HasCell Apart at *
  omega

/-! ### Tilings -/

/-- Whether some regions lie within another one, and each cell of it is in exactly one of them. -/
structure Tiles (rs : List Region) (u : Region) : Prop where
  inside : ∀ r ∈ rs, r.Inside u
  once : ∀ i j, u.HasCell i j → rs.countP (fun r => r.HasCell i j) = 1

/-- At most one of some regions that are apart has a given cell. -/
theorem countP_hasCell_le_one {gap : Nat} (h : rs.Pairwise (Apart gap)) (i j : Nat) :
    rs.countP (fun r => r.HasCell i j) ≤ 1 := by
  induction h with
  | nil => simp
  | @cons r rs hr _ ih =>
    by_cases hcell : r.HasCell i j
    · have hnone : rs.countP (fun s => s.HasCell i j) = 0 := by
        rw [List.countP_eq_zero]
        intro s hs hscell
        exact hcell.not_apart (of_decide_eq_true hscell) (hr s hs)
      simp [hcell, hnone]
    · simpa [List.countP_cons, hcell] using ih

/-- Regions that are apart tile the region in which they lie if they leave no cell out. -/
theorem Tiles.of_apart {gap : Nat} (hinside : ∀ r ∈ rs, r.Inside u) (h : rs.Pairwise (Apart gap))
    (hall : ∀ i j, u.HasCell i j → ∃ r ∈ rs, r.HasCell i j) : Tiles rs u := by
  refine ⟨hinside, fun i j hij => ?_⟩
  obtain ⟨r, hr, hcell⟩ := hall i j hij
  have hpos : 0 < rs.countP (fun r => r.HasCell i j) :=
    List.countP_pos_iff.2 ⟨r, hr, decide_eq_true hcell⟩
  have hle := countP_hasCell_le_one h i j
  omega

/-- The areas of regions within another one, counted cell by cell. -/
theorem sum_area_eq (h : ∀ r ∈ rs, r.Inside u) : (rs.map area).sum =
    ∑ c ∈ u.cells, rs.countP (fun r => r.HasCell c.1 c.2) := by
  induction rs with
  | nil => simp
  | cons r rs ih =>
    rw [List.forall_mem_cons] at h
    have hcells : u.cells.filter (fun c => r.HasCell c.1 c.2) = r.cells := by
      ext c
      rw [mem_filter, mem_cells, mem_cells]
      exact and_iff_right_of_imp fun hc => hc.of_inside h.1
    have hhead : r.area = ∑ c ∈ u.cells, if r.HasCell c.1 c.2 then 1 else 0 := by
      rw [← card_filter, hcells, card_cells]
    simp only [List.map_cons, List.sum_cons, List.countP_cons, decide_eq_true_eq,
      sum_add_distrib]
    rw [ih h.2, hhead, Nat.add_comm]

/-- Regions within another one that are apart have no more area than it. -/
theorem sum_area_le {gap : Nat} (hinside : ∀ r ∈ rs, r.Inside u) (h : rs.Pairwise (Apart gap)) :
    (rs.map area).sum ≤ u.area := by
  rw [sum_area_eq hinside, ← card_cells, card_eq_sum_ones]
  exact sum_le_sum fun c _ => countP_hasCell_le_one h c.1 c.2

/-- The areas of the regions of a tiling add up. -/
theorem Tiles.sum_area (h : Tiles rs u) : (rs.map area).sum = u.area := by
  have honce : ∀ c ∈ u.cells, rs.countP (fun r => r.HasCell c.1 c.2) = 1 :=
    fun c hc => h.once c.1 c.2 (mem_cells.1 hc)
  rw [sum_area_eq h.inside, sum_congr rfl honce, ← card_eq_sum_ones, card_cells]

end Region

/-! ### Splits without loss -/

namespace Corner

variable {c : Corner} {i j : Nat}

theorem exists_rightPart (height : Length)
    (hleft : c.width.toNat + c.kerf.toNat < c.free.width.toNat) (hheight : 0 < height.toNat) :
    ∃ p, c.rightPart height = some p := by
  have hpos : 0 < c.leftWidth := leftWidth_pos_iff.2 (by omega)
  have hrest := toNat_rest c.free.width c.width c.kerf
  rw [rightPart, takenWidth, if_pos hpos, if_pos]
  · exact ⟨_, rfl⟩
  · rw [UInt32.lt_iff_toNat_lt (a := 0), UInt32.lt_iff_toNat_lt (a := 0), hrest,
      UInt32.toNat_zero]
    exact ⟨hpos, by omega, hheight⟩

theorem exists_lowerPart (width : Length)
    (hleft : c.height.toNat + c.kerf.toNat < c.free.height.toNat) (hwidth : 0 < width.toNat) :
    ∃ p, c.lowerPart width = some p := by
  have hpos : 0 < c.leftHeight := leftHeight_pos_iff.2 (by omega)
  have hrest := toNat_rest c.free.height c.height c.kerf
  rw [lowerPart, takenHeight, if_pos hpos, if_pos]
  · exact ⟨_, rfl⟩
  · rw [UInt32.lt_iff_toNat_lt (a := 0), UInt32.lt_iff_toNat_lt (a := 0), hrest,
      UInt32.toNat_zero]
    exact ⟨hpos, by omega, hwidth⟩

/-- What lies right of the piece, and above the end of the right part, is in that part. -/
theorem rightPart_hasCell (hc : c.Fitting) (hkerf : c.kerf.toNat = 0) (height : Length)
    (hcell : c.free.region.HasCell i j) (hi : c.free.x.toNat + c.width.toNat ≤ i)
    (hj : j < c.free.y.toNat + height.toNat) :
    ∃ p ∈ (c.rightPart height).toList, p.region.HasCell i j := by
  simp only [Region.HasCell, Rect.region] at hcell
  obtain ⟨p, hp⟩ := exists_rightPart (c := c) height (by omega) (by omega)
  obtain ⟨-, -, hregion⟩ := (rightPart_eq_some_iff hc).1 hp
  refine ⟨p, Option.mem_toList.2 hp, ?_⟩
  simp only [hregion, Region.HasCell]
  omega

/-- What lies below the piece, and left of the end of the part below, is in that part. -/
theorem lowerPart_hasCell (hc : c.Fitting) (hkerf : c.kerf.toNat = 0) (width : Length)
    (hcell : c.free.region.HasCell i j) (hi : i < c.free.x.toNat + width.toNat)
    (hj : c.free.y.toNat + c.height.toNat ≤ j) :
    ∃ p ∈ (c.lowerPart width).toList, p.region.HasCell i j := by
  simp only [Region.HasCell, Rect.region] at hcell
  obtain ⟨p, hp⟩ := exists_lowerPart (c := c) width (by omega) (by omega)
  obtain ⟨-, -, hregion⟩ := (lowerPart_eq_some_iff hc).1 hp
  refine ⟨p, Option.mem_toList.2 hp, ?_⟩
  simp only [hregion, Region.HasCell]
  omega

/-- Whatever the rule, a blade without width loses no cell of the free rectangle. -/
theorem split_hasCell (hc : c.Fitting) (hkerf : c.kerf.toNat = 0) (rule : SplitRule)
    (hcell : c.free.region.HasCell i j) :
    c.piece.region.HasCell i j ∨ ∃ p ∈ rule.split c, p.region.HasCell i j := by
  have hfree := hcell
  simp only [Region.HasCell, Rect.region] at hfree
  unfold SplitRule.split
  split
  · by_cases hj : c.free.y.toNat + c.height.toNat ≤ j
    · obtain ⟨p, hp, hin⟩ := lowerPart_hasCell hc hkerf c.free.width hcell
        hfree.1.2 hj
      exact .inr ⟨p, List.mem_append_right _ hp, hin⟩
    · by_cases hi : c.free.x.toNat + c.width.toNat ≤ i
      · obtain ⟨p, hp, hin⟩ := rightPart_hasCell hc hkerf c.height hcell hi
          (Nat.lt_of_not_le hj)
        exact .inr ⟨p, List.mem_append_left _ hp, hin⟩
      · left
        simp only [piece, Rect.region, Region.HasCell]
        omega
  · by_cases hi : c.free.x.toNat + c.width.toNat ≤ i
    · obtain ⟨p, hp, hin⟩ := rightPart_hasCell hc hkerf c.free.height hcell hi
        hfree.2.2
      exact .inr ⟨p, List.mem_append_right _ hp, hin⟩
    · by_cases hj : c.free.y.toNat + c.height.toNat ≤ j
      · obtain ⟨p, hp, hin⟩ := lowerPart_hasCell hc hkerf c.width hcell
          (Nat.lt_of_not_le hi) hj
        exact .inr ⟨p, List.mem_append_left _ hp, hin⟩
      · left
        simp only [piece, Rect.region, Region.HasCell]
        omega

end Corner

end Guillotine
