import Guillotine.Board.Layout

/-! Reports: the answer to a request, with what each sheet costs and how well it is used. A report
is what is kept for later, so it holds texts and numbers only, and can be written and read back. -/
namespace Guillotine

/-- What the sheets of one material cost. -/
structure CostRow where
  material : String
  boards : UInt64
  unitCost : Float
  totalCost : Float

structure Costs where
  rows : List CostRow
  total : Float

/-- A part of a sheet that is left over. -/
structure Offcut where
  rect : Rect
  /-- Whether it is large enough to be kept. -/
  reusable : Bool
deriving DecidableEq

/-- The report on one sheet. -/
structure BoardReport where
  material : String
  index : UInt64
  cuts : List Placement
  /-- The covered part of the sheet in percent. -/
  utilization : Float
  offcuts : List Offcut

/-- An item that is on no sheet. -/
structure Unplaced where
  id : String
  material : String
  width : Length
  height : Length
  label : Option String
deriving DecidableEq

structure Summary where
  project : String
  boards : UInt64
  totalCost : Float
  /-- The part of all sheets that no item covers, in percent. -/
  wastePercentage : Float
  /-- How long the packing took. -/
  time : String

structure Report where
  summary : Summary
  costs : Costs
  boards : List BoardReport
  unplaced : List Unplaced
  /-- Whether the report was kept from an earlier request. -/
  cached : Bool
  /-- The digest of the request, empty if unknown. -/
  digest : String

end Guillotine
