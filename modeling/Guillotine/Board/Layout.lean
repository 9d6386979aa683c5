import Guillotine.Stock.Piece

/-! Finished sheets: what was placed where, and what remains. -/
namespace Guillotine

/-- An item on a sheet. Its extents are those on the sheet, exchanged with respect to the item if
it was rotated. -/
structure Placement where
  item : String
  label : Option String
  x : Length
  y : Length
  width : Length
  height : Length
  rotated : Bool
deriving DecidableEq

namespace Placement

def rect (p : Placement) : Rect := ⟨p.x, p.y, p.width, p.height⟩

def area (p : Placement) : Area := p.rect.area

end Placement

/-- The area of some placements together. -/
def placedArea (ps : List Placement) : Checked Area := Area.sum (ps.map Placement.area)

/-- The record of a finished sheet. -/
structure Layout where
  material : Material
  /-- The number of the sheet among those of its material, counted from one. -/
  index : UInt64
  /-- The region inside the trims. -/
  usable : Rect
  placed : List Placement
  /-- What is left free. -/
  remainders : List Rect

namespace Layout

def usedArea (l : Layout) : Checked Area := placedArea l.placed

def usableArea (l : Layout) : Area := l.usable.area

/-- The area of the sheet that no item covers, trims and kerf included. -/
def wasteArea (l : Layout) : Checked Area := do
  Area.sub l.material.area (← l.usedArea)

/-- The covered fraction of the sheet. -/
def efficiency (l : Layout) : Checked Float := do
  return (← l.usedArea).toFloat / l.material.area.toFloat

end Layout

end Guillotine
