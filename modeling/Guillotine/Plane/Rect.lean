import Guillotine.Fault

/-! Axis-parallel rectangles on a grid of millimetres. The origin `(x, y)` is the corner nearest to
the top left, and `y` grows downwards. The far edges are sums of lengths, so every question that
needs one may fault, and which edges a question looks at is part of its meaning. -/
namespace Guillotine

structure Rect where
  x : Length
  y : Length
  width : Length
  height : Length
deriving DecidableEq, Repr

namespace Rect

/-- The right edge. -/
@[inline] def right (r : Rect) : Checked Length := Length.add r.x r.width

/-- The bottom edge. -/
@[inline] def bottom (r : Rect) : Checked Length := Length.add r.y r.height

def area (r : Rect) : Area := Length.times r.width r.height

/-- Whether an upright `width` by `height` rectangle is no larger than `r`. -/
def fits (r : Rect) (width height : Length) : Bool :=
  height ≤ r.height && width ≤ r.width

/-- Whether `inner` lies within `outer`; edges may coincide. The far edges are looked at only once
the near ones agree, the horizontal pair first. -/
def contains (outer inner : Rect) : Checked Bool :=
  if outer.x ≤ inner.x && outer.y ≤ inner.y then do
    let far ← outer.right
    if (← inner.right) ≤ far then
      let low ← outer.bottom
      return (← inner.bottom) ≤ low
    else return false
  else return false

/-- Whether the interiors of two rectangles meet. The vertical edges are looked at only where the
horizontal spans meet. -/
def overlaps (a b : Rect) : Checked Bool := do
  let ar ← a.right
  let br ← b.right
  if max a.x b.x < min ar br then
    let ab ← a.bottom
    let bb ← b.bottom
    return max a.y b.y < min ab bb
  else return false

/-- The common part of two rectangles, if their interiors meet. -/
def inter (a b : Rect) : Checked (Option Rect) := do
  let x := max a.x b.x
  let y := max a.y b.y
  let right := min (← a.right) (← b.right)
  let bottom := min (← a.bottom) (← b.bottom)
  return if x < right ∧ y < bottom then some ⟨x, y, right - x, bottom - y⟩ else none

/-- The rectangle with the same origin that is wider by `dw` and taller by `dh`, up to the longest
length. -/
def grown (r : Rect) (dw dh : Length) : Rect :=
  { r with width := Length.addCapped r.width dw, height := Length.addCapped r.height dh }

/-- For a reader: the extent, then the origin. -/
def describe (r : Rect) : String :=
  s!"[{r.width}x{r.height} @ ({r.x}, {r.y})]"

theorem toNat_area (r : Rect) : r.area.toNat = r.width.toNat * r.height.toNat :=
  Length.toNat_times r.width r.height

theorem fits_iff {r : Rect} {w h : Length} : r.fits w h = true ↔ w ≤ r.width ∧ h ≤ r.height := by
  simp [fits, and_comm]

/-- What fits has no larger area. -/
theorem area_le_of_fits {r : Rect} {w h : Length} (hf : r.fits w h = true) :
    Length.times w h ≤ r.area := by
  obtain ⟨hw, hh⟩ := fits_iff.1 hf
  rw [UInt64.le_iff_toNat_le, toNat_area, Length.toNat_times]
  exact Nat.mul_le_mul (UInt32.le_iff_toNat_le.1 hw) (UInt32.le_iff_toNat_le.1 hh)

end Rect

end Guillotine
