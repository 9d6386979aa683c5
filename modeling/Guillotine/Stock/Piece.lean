import Guillotine.Stock.Material

/-! The demand: pieces wanted in some quantity, and the single items a piece stands for. -/
namespace Guillotine

/-- A rectangle to be cut `quantity` times from a material. -/
structure Piece where
  id : String
  /-- The code of the material to cut from. -/
  material : String
  width : Length
  height : Length
  quantity : Length
  canRotate : Bool
  /-- Pieces of higher priority are placed first. -/
  priority : Int32
  /-- The grain that the piece has to follow. -/
  grain : Option Grain
  label : Option String
deriving DecidableEq

/-- One copy of a piece. -/
structure Item where
  id : String
  material : String
  width : Length
  height : Length
  canRotate : Bool
  priority : Int32
  grain : Option Grain
  label : Option String
deriving DecidableEq

namespace Item

def area (i : Item) : Area := Length.times i.width i.height

end Item

namespace Piece

def area (p : Piece) : Area := Length.times p.width p.height

/-- The first flaw of a piece by itself. -/
def flaw? (p : Piece) : Option PieceFlaw :=
  if p.width = 0 ∨ p.height = 0 then some .emptySide
  else if p.quantity = 0 then some .noCopies
  else if maxQuantity < p.quantity then some .tooManyCopies
  else none

def validate (p : Piece) : Except Rejection Unit :=
  match p.flaw? with
  | some flaw => .error (.invalidPiece p.id flaw)
  | none => .ok ()

/-- The copy of a piece with number `k`, counted from one. The number is part of the id unless the
piece is wanted just once. -/
def copy (p : Piece) (k : Nat) : Item where
  id := if p.quantity = 1 then p.id else s!"{p.id}_{k}"
  material := p.material
  width := p.width
  height := p.height
  canRotate := p.canRotate
  priority := p.priority
  grain := p.grain
  label := p.label

/-- All copies of a piece. -/
def copies (p : Piece) : List Item :=
  (List.range p.quantity.toNat).map fun k => p.copy (k + 1)

end Piece

end Guillotine
