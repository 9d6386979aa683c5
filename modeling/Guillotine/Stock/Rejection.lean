import Guillotine.Fault

/-! Why a demand is turned down before anything is cut. A piece that merely does not fit is no
reason: it is reported as unplaced. -/
namespace Guillotine

/-- A direction along which trims can use up a sheet. -/
inductive Axis where
  | horizontal
  | vertical
deriving DecidableEq, Repr

def Axis.name : Axis → String
  | .horizontal => "horizontal"
  | .vertical => "vertical"

/-- What is wrong with a piece. -/
inductive PieceFlaw where
  | emptySide
  | noCopies
  | tooManyCopies
deriving DecidableEq, Repr

/-- What is wrong with a material. -/
inductive MaterialFlaw where
  | noCode
  | emptySide
  | badCost
  | repeatedCode
deriving DecidableEq, Repr

/-- The largest quantity of one piece. -/
def maxQuantity : Length := 10000

def PieceFlaw.reason : PieceFlaw → String
  | .emptySide => "dimensions must be positive"
  | .noCopies => "quantity must be at least 1"
  | .tooManyCopies => s!"quantity must be at most {maxQuantity}"

def MaterialFlaw.reason : MaterialFlaw → String
  | .noCode => "code must not be empty"
  | .emptySide => "dimensions must be positive"
  | .badCost => "cost per unit must be a finite, non-negative number"
  | .repeatedCode => "material code is listed more than once"

/-- Why a demand is turned down. -/
inductive Rejection where
  | nothingDemanded
  | unknownMaterial (piece material : String)
  | noUsableSpace (material : String) (axis : Axis) (trim dimension : Length)
  | invalidPiece (piece : String) (flaw : PieceFlaw)
  | invalidMaterial (material : String) (flaw : MaterialFlaw)
deriving DecidableEq, Repr

namespace Rejection

def message : Rejection → String
  | nothingDemanded => "no pieces were provided"
  | unknownMaterial piece material =>
    s!"piece '{piece}' references unknown material '{material}'"
  | noUsableSpace material axis trim dimension =>
    s!"{axis.name} trims ({trim}) leave no usable space on material '{material}' ({dimension})"
  | invalidPiece piece flaw => s!"invalid piece '{piece}': {flaw.reason}"
  | invalidMaterial material flaw => s!"invalid material '{material}': {flaw.reason}"

end Rejection

end Guillotine
