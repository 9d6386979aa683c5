import Guillotine.Proofs.Plane.Cells
import Mathlib.Algebra.Order.Ring.Int
import Mathlib.Data.Nat.Cast.Order.Ring

/-! Splits in all integers: the formulas of a split without a longest length, a floor at zero or a
largest area, where a part exists just if its extents are positive. In a corner in which the piece
fits and whose far edges are lengths, the parts of a split are the exact ones, and none of them
leaves the free rectangle. -/
namespace Guillotine

/-- A rectangle whose coordinates and extents may be any integers. -/
structure ExactRect where
  x : ℤ
  y : ℤ
  width : ℤ
  height : ℤ
deriving DecidableEq

def ExactRect.area (r : ExactRect) : ℤ := r.width * r.height

def Region.exact (r : Region) : ExactRect := ⟨r.x, r.y, r.width, r.height⟩

def Rect.exact (r : Rect) : ExactRect := r.region.exact

/-- The area of the largest of some rectangles, zero if there is none. -/
def largestExactArea (rs : List ExactRect) : ℤ :=
  rs.foldl (fun a r => max a r.area) 0

/-- A piece in the origin corner of a free rectangle, both of any extents. -/
structure ExactCorner where
  free : ExactRect
  width : ℤ
  height : ℤ
  kerf : ℤ

def Corner.exact (c : Corner) : ExactCorner :=
  ⟨c.free.exact, c.width.toNat, c.height.toNat, c.kerf.toNat⟩

namespace ExactCorner

def leftWidth (c : ExactCorner) : ℤ := c.free.width - c.width

def leftHeight (c : ExactCorner) : ℤ := c.free.height - c.height

def takenWidth (c : ExactCorner) : ℤ := c.width + if 0 < c.leftWidth then c.kerf else 0

def takenHeight (c : ExactCorner) : ℤ := c.height + if 0 < c.leftHeight then c.kerf else 0

/-- The part to the right, `height` tall, if its extents are positive. -/
def rightPart (c : ExactCorner) (height : ℤ) : Option ExactRect :=
  let width := c.free.width - c.takenWidth
  if 0 < width ∧ 0 < height then some ⟨c.free.x + c.takenWidth, c.free.y, width, height⟩ else none

/-- The part below, `width` wide, if its extents are positive. -/
def lowerPart (c : ExactCorner) (width : ℤ) : Option ExactRect :=
  let height := c.free.height - c.takenHeight
  if 0 < height ∧ 0 < width then some ⟨c.free.x, c.free.y + c.takenHeight, width, height⟩ else none

def lowerSpans (c : ExactCorner) : List ExactRect :=
  (c.rightPart c.height).toList ++ (c.lowerPart c.free.width).toList

def rightSpans (c : ExactCorner) : List ExactRect :=
  (c.lowerPart c.width).toList ++ (c.rightPart c.free.height).toList

end ExactCorner

namespace SplitRule

def exactLowerSpans (rule : SplitRule) (c : ExactCorner) : Bool :=
  match rule with
  | .shorterLeftoverAxis => c.leftWidth ≤ c.leftHeight
  | .longerLeftoverAxis => c.leftHeight ≤ c.leftWidth
  | .shorterAxis => c.free.width ≤ c.free.height
  | .longerAxis => c.free.height ≤ c.free.width
  | .minimizeArea => largestExactArea c.lowerSpans ≤ largestExactArea c.rightSpans
  | .maximizeArea => largestExactArea c.rightSpans ≤ largestExactArea c.lowerSpans

/-- The parts that a rule leaves of a free rectangle, in all integers. -/
def exactSplit (rule : SplitRule) (c : ExactCorner) : List ExactRect :=
  if rule.exactLowerSpans c then c.lowerSpans else c.rightSpans

end SplitRule

/-! ### Areas -/

theorem Rect.area_exact (r : Rect) : r.exact.area = r.area.toNat := by
  rw [toNat_area, Nat.cast_mul]
  rfl

theorem Area.toNat_max (a b : Area) : (max a b).toNat = max a.toNat b.toNat := by
  show (if a ≤ b then b else a).toNat = _
  split
  next h => exact (max_eq_right (UInt64.le_iff_toNat_le.1 h)).symm
  next h => exact (max_eq_left (Nat.le_of_not_le fun h' => h (UInt64.le_iff_toNat_le.2 h'))).symm

theorem largestExactArea_map (rs : List Rect) :
    largestExactArea (rs.map Rect.exact) = (largestArea rs).toNat := by
  have hfold : ∀ a : Area, (rs.map Rect.exact).foldl (fun a r => max a r.area) (a.toNat : ℤ) =
      (rs.foldl (fun a r => max a r.area) a).toNat := by
    induction rs with
    | nil => exact fun _ => rfl
    | cons r rs ih =>
      intro a
      rw [List.map_cons, List.foldl_cons, List.foldl_cons, ← ih, Area.toNat_max, Nat.cast_max,
        Rect.area_exact]
  exact hfold 0

theorem largestArea_le_iff (rs ss : List Rect) : largestArea rs ≤ largestArea ss ↔
    largestExactArea (rs.map Rect.exact) ≤ largestExactArea (ss.map Rect.exact) := by
  rw [largestExactArea_map, largestExactArea_map, Nat.cast_le, UInt64.le_iff_toNat_le]

/-! ### Parts -/

namespace Corner

variable {c : Corner} {p : Rect}

theorem exact_leftWidth (hc : c.Fitting) : c.exact.leftWidth = c.leftWidth.toNat := by
  rw [leftWidth, Length.toNat_subFloored, Nat.cast_sub hc.width_le]
  rfl

theorem exact_leftHeight (hc : c.Fitting) : c.exact.leftHeight = c.leftHeight.toNat := by
  rw [leftHeight, Length.toNat_subFloored, Nat.cast_sub hc.height_le]
  rfl

/-- The exact width that is left beyond the blade is positive just if the blade ends before the far
edge, and then the blade is counted in full. -/
theorem exact_takenWidth (c : Corner) :
    (0 < c.exact.free.width - c.exact.takenWidth ↔
      c.width.toNat + c.kerf.toNat < c.free.width.toNat) ∧
    (c.width.toNat + c.kerf.toNat < c.free.width.toNat →
      c.exact.takenWidth = (c.width.toNat + c.kerf.toNat : Nat)) := by
  have hfree : c.exact.free.width = c.free.width.toNat := rfl
  have hwidth : c.exact.width = c.width.toNat := rfl
  have hkerf : c.exact.kerf = c.kerf.toNat := rfl
  unfold ExactCorner.takenWidth ExactCorner.leftWidth
  split <;> omega

theorem exact_takenHeight (c : Corner) :
    (0 < c.exact.free.height - c.exact.takenHeight ↔
      c.height.toNat + c.kerf.toNat < c.free.height.toNat) ∧
    (c.height.toNat + c.kerf.toNat < c.free.height.toNat →
      c.exact.takenHeight = (c.height.toNat + c.kerf.toNat : Nat)) := by
  have hfree : c.exact.free.height = c.free.height.toNat := rfl
  have hheight : c.exact.height = c.height.toNat := rfl
  have hkerf : c.exact.kerf = c.kerf.toNat := rfl
  unfold ExactCorner.takenHeight ExactCorner.leftHeight
  split <;> omega

theorem rightPart_exact (hc : c.Fitting) (height : Length) :
    (c.rightPart height).map Rect.exact = c.exact.rightPart height.toNat := by
  obtain ⟨hpos, htaken⟩ := exact_takenWidth c
  by_cases h : c.width.toNat + c.kerf.toNat < c.free.width.toNat ∧ 0 < height.toNat
  · obtain ⟨p, hp⟩ := exists_rightPart height h.1 h.2
    obtain ⟨-, -, hregion⟩ := (rightPart_eq_some_iff hc).1 hp
    rw [ExactCorner.rightPart, if_pos ⟨hpos.2 h.1, Nat.cast_pos.2 h.2⟩, htaken h.1, hp,
      Option.map_some, Rect.exact, hregion]
    simp only [Region.exact, exact, Rect.exact, Rect.region, Nat.cast_add,
      Nat.cast_sub (Nat.le_of_lt h.1)]
  · rw [ExactCorner.rightPart, if_neg fun h' => h ⟨hpos.1 h'.1, Nat.cast_pos.1 h'.2⟩,
      Option.map_eq_none_iff, Option.eq_none_iff_forall_ne_some]
    intro p hp
    obtain ⟨hlt, hheight, -⟩ := (rightPart_eq_some_iff hc).1 hp
    exact h ⟨hlt, hheight⟩

theorem lowerPart_exact (hc : c.Fitting) (width : Length) :
    (c.lowerPart width).map Rect.exact = c.exact.lowerPart width.toNat := by
  obtain ⟨hpos, htaken⟩ := exact_takenHeight c
  by_cases h : c.height.toNat + c.kerf.toNat < c.free.height.toNat ∧ 0 < width.toNat
  · obtain ⟨p, hp⟩ := exists_lowerPart width h.1 h.2
    obtain ⟨-, -, hregion⟩ := (lowerPart_eq_some_iff hc).1 hp
    rw [ExactCorner.lowerPart, if_pos ⟨hpos.2 h.1, Nat.cast_pos.2 h.2⟩, htaken h.1, hp,
      Option.map_some, Rect.exact, hregion]
    simp only [Region.exact, exact, Rect.exact, Rect.region, Nat.cast_add,
      Nat.cast_sub (Nat.le_of_lt h.1)]
  · rw [ExactCorner.lowerPart, if_neg fun h' => h ⟨hpos.1 h'.1, Nat.cast_pos.1 h'.2⟩,
      Option.map_eq_none_iff, Option.eq_none_iff_forall_ne_some]
    intro p hp
    obtain ⟨hlt, hwidth, -⟩ := (lowerPart_eq_some_iff hc).1 hp
    exact h ⟨hlt, hwidth⟩

theorem lowerSpans_exact (hc : c.Fitting) :
    c.lowerSpans.map Rect.exact = c.exact.lowerSpans := by
  rw [lowerSpans, List.map_append, ← Option.toList_map, ← Option.toList_map, rightPart_exact hc,
    lowerPart_exact hc]
  rfl

theorem rightSpans_exact (hc : c.Fitting) :
    c.rightSpans.map Rect.exact = c.exact.rightSpans := by
  rw [rightSpans, List.map_append, ← Option.toList_map, ← Option.toList_map, rightPart_exact hc,
    lowerPart_exact hc]
  rfl

/-- A rule lets the part below span the free rectangle just if it does so in all integers. -/
theorem lowerSpans_eq_exact (hc : c.Fitting) (rule : SplitRule) :
    rule.lowerSpans c = rule.exactLowerSpans c.exact := by
  cases rule <;> rw [SplitRule.lowerSpans, SplitRule.exactLowerSpans, decide_eq_decide]
  case shorterLeftoverAxis | longerLeftoverAxis =>
    rw [UInt32.le_iff_toNat_le, exact_leftWidth hc, exact_leftHeight hc, Nat.cast_le]
  case shorterAxis | longerAxis => exact UInt32.le_iff_toNat_le.trans Nat.cast_le.symm
  case minimizeArea | maximizeArea =>
    rw [largestArea_le_iff, lowerSpans_exact hc, rightSpans_exact hc]

/-- Whatever the rule, the parts of a split are those of the same formulas in all integers. -/
theorem split_exact (hc : c.Fitting) (rule : SplitRule) :
    (rule.split c).map Rect.exact = rule.exactSplit c.exact := by
  rw [SplitRule.split, SplitRule.exactSplit, lowerSpans_eq_exact hc]
  split
  · exact lowerSpans_exact hc
  · exact rightSpans_exact hc

/-- No part leaves the free rectangle. -/
theorem inside_of_mem_split (hc : c.Fitting) {rule : SplitRule} (hp : p ∈ rule.split c) :
    p.region.Inside c.free.region := by
  have hright : ∀ {h : Length}, h.toNat ≤ c.free.height.toNat → p ∈ (c.rightPart h).toList →
      p.region.Inside c.free.region := by
    intro h hle hm
    obtain ⟨hlt, -, hr⟩ := (rightPart_eq_some_iff hc).1 (Option.mem_toList.1 hm)
    rw [hr]
    simp only [Region.Inside, Rect.region]
    omega
  have hlower : ∀ {w : Length}, w.toNat ≤ c.free.width.toNat → p ∈ (c.lowerPart w).toList →
      p.region.Inside c.free.region := by
    intro w hle hm
    obtain ⟨hlt, -, hr⟩ := (lowerPart_eq_some_iff hc).1 (Option.mem_toList.1 hm)
    rw [hr]
    simp only [Region.Inside, Rect.region]
    omega
  unfold SplitRule.split at hp
  split at hp
  · exact (List.mem_append.1 hp).elim (hright hc.height_le) (hlower (Nat.le_refl _))
  · exact (List.mem_append.1 hp).elim (hlower hc.width_le) (hright (Nat.le_refl _))

end Corner

end Guillotine
