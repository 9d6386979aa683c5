import Guillotine.Board.Layout

/-! The result of packing a demand: finished sheets, and the items that found no place. -/
namespace Guillotine

structure Plan where
  /-- Finished sheets, those of one material next to each other. -/
  layouts : List Layout
  /-- Items that are on no sheet. -/
  unplaced : List Item

/-- Neighbours with equal codes counted together: the material of the first, and their number. -/
def countRuns : List Material → List (Material × Nat)
  | [] => []
  | m :: ms =>
    match countRuns ms with
    | (k, n) :: rest =>
      if m.code = k.code then (m, n + 1) :: rest else (m, 1) :: (k, n) :: rest
    | [] => [(m, 1)]

namespace Plan

def sheetCount (p : Plan) : Nat := p.layouts.length

def placedCount (p : Plan) : Nat := (p.layouts.flatMap Layout.placed).length

/-- The area of all placed items. -/
def usedArea (p : Plan) : Checked Area := do
  Area.sum (← p.layouts.mapM Layout.usedArea)

/-- The area of all sheets used, trims included. -/
def materialArea (p : Plan) : Checked Area :=
  Area.sum (p.layouts.map fun l => l.material.area)

/-- The covered fraction of all sheets used, zero if there are none. -/
def efficiency (p : Plan) : Checked Float := do
  let total ← p.materialArea
  if total = 0 then return 0
  return (← p.usedArea).toFloat / total.toFloat

/-- How many sheets of each material are used, in order. -/
def sheetsPerMaterial (p : Plan) : List (Material × Nat) :=
  countRuns (p.layouts.map Layout.material)

/-- Whether placed and unplaced items together are `n`. -/
def accountsFor (p : Plan) (n : Nat) : Bool :=
  p.placedCount + p.unplaced.length == n

end Plan

end Guillotine
