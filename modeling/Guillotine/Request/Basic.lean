import Guillotine.Stock.Piece

/-! Requests: the cuts someone wants, the materials there are, and the saw. -/
namespace Guillotine

/-- A cut that is wanted in some quantity. It has no name of its own. -/
structure Cut where
  width : Length
  height : Length
  quantity : Length
  /-- The code of the material to cut from. -/
  material : String
  label : Option String
  allowRotation : Bool
  /-- The grain that the cut has to follow. -/
  grain : Option Grain
  priority : Int32
deriving DecidableEq

structure Request where
  project : String
  cuts : List Cut
  materials : List Material
  saw : Saw

end Guillotine
