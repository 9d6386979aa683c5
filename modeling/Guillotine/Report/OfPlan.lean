import Guillotine.Calendar.Duration
import Guillotine.Decimal.Fixed
import Guillotine.Plan.Basic
import Guillotine.Report.Basic

/-! The report on a plan. Its areas are sums that may fault, those of the sheets one by one first
and those of the whole plan after them. -/
namespace Guillotine

/-- The report on one sheet; offcuts with both sides at least `reusableSide` long are reusable. -/
def Layout.report (l : Layout) (reusableSide : Length) : Checked BoardReport := do
  return {
    material := l.material.code
    index := l.index
    cuts := l.placed
    utilization := (← l.efficiency) * 100
    offcuts := l.remainders.map fun r =>
      ⟨r, reusableSide ≤ r.width && reusableSide ≤ r.height⟩ }

/-- What some sheets of one material cost. -/
def Material.costRow (m : Material) (boards : Nat) : CostRow :=
  ⟨m.code, UInt64.ofNat boards, m.cost, m.cost * boards.toFloat⟩

/-- The sum of some numbers from the left. The empty sum is the neutral element of addition, which
is negative zero. -/
def sumOfFloats (xs : List Float) : Float := xs.foldl (· + ·) (-0.0)

def Item.unplaced (i : Item) : Unplaced := ⟨i.id, i.material, i.width, i.height, i.label⟩

namespace Plan

/-- What the sheets of a plan cost. -/
def costs (p : Plan) : Costs :=
  let rows := p.sheetsPerMaterial.map fun (m, n) => m.costRow n
  ⟨rows, sumOfFloats (rows.map CostRow.totalCost)⟩

/-- The uncovered part of all sheets in percent, zero if there are none. -/
def wastePercentage (p : Plan) : Checked Float := do
  if p.layouts.isEmpty then return 0
  return (1 - (← p.efficiency)) * 100

/-- The report on a plan for a project that took some time to make. It is fresh, and has no digest
yet. -/
def report (p : Plan) (project : String) (elapsed : Duration) (reusableSide : Length) :
    Checked Report := do
  let boards ← p.layouts.mapM fun l => l.report reusableSide
  let costs := p.costs
  return {
    summary := {
      project
      boards := UInt64.ofNat p.sheetCount
      totalCost := costs.total
      wastePercentage := ← p.wastePercentage
      time := Fixed.text 3 elapsed.toFloat ++ "s" }
    costs
    boards
    unplaced := p.unplaced.map Item.unplaced
    cached := false
    digest := "" }

end Plan

end Guillotine
