import Guillotine.Decimal.Shortest

/-! The binary number nearest to a decimal. The exponent of a decimal in a document may be
anything, so decimals beyond the range of binary numbers are told apart first. -/
namespace Guillotine

/-- The number nearest to `mantissa * 10 ^ exponent`, with a sign, unless it is too large. -/
def nearestFloat? (negative : Bool) (mantissa : Nat) (exponent : Int) : Option Float :=
  let lead := (Shortest.digitCount mantissa : Int) + exponent
  let magnitude : Float :=
    if mantissa = 0 ∨ lead < -330 then 0
    else if 310 < lead then 1 / 0
    else Float.ofScientific mantissa (exponent < 0) exponent.natAbs
  if magnitude.isFinite then some (if negative then -magnitude else magnitude) else none

end Guillotine
