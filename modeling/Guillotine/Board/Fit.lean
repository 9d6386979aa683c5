import Guillotine.Board.FreeList
import Guillotine.Stock.Piece

/-! Where an item goes on a sheet: the ways it may be turned, and the free rectangle that it leaves
the least area of. The turned way wins only if it is strictly better. -/
namespace Guillotine

/-- An item as it would lie on the sheet. -/
structure Orientation where
  width : Length
  height : Length
  rotated : Bool
deriving DecidableEq, Repr

/-- The ways an item may lie, as drawn first. An item that has to follow a grain lies as drawn,
whatever the grain of the sheet, and turning a square changes nothing. -/
def Item.orientations (i : Item) : List Orientation :=
  if i.grain.isNone && i.canRotate && i.width != i.height then
    [⟨i.width, i.height, false⟩, ⟨i.height, i.width, true⟩]
  else [⟨i.width, i.height, false⟩]

/-- Whether an item fits a rectangle in one of the ways it may lie. -/
def Item.fitsIn (i : Item) (r : Rect) : Bool :=
  i.orientations.any fun o => r.fits o.width o.height

/-- A place for an item: a free rectangle, the way to lie in its origin corner, and the area left
of it. -/
structure Spot where
  handle : Handle
  orientation : Orientation
  left : Area
deriving DecidableEq, Repr

namespace FreeList

/-- The best place for one way of lying. -/
def spotFor (f : FreeList) (o : Orientation) : Option Spot :=
  (f.bestFit o.width o.height).map fun (h, left) => ⟨h, o, left⟩

/-- The better of two places: the earlier unless strictly worse. -/
def betterSpot : Option Spot → Option Spot → Option Spot
  | some a, some b => some (if b.left < a.left then b else a)
  | none, b => b
  | a, none => a

/-- The best place for an item, if it fits anywhere. -/
def findSpot (f : FreeList) (i : Item) : Option Spot :=
  i.orientations.foldl (fun best o => betterSpot best (f.spotFor o)) none

end FreeList

end Guillotine
