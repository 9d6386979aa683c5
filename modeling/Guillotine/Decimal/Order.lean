import Guillotine.Decimal.Binary64

/-! Two orders on binary numbers: by value, and by value and sign. -/
namespace Guillotine

/-- Numbers by value, both zeros alike; what is no number comes last. -/
def compareValues (a b : Float) : Ordering :=
  if a < b then .lt
  else if b < a then .gt
  else if a.isNaN then if b.isNaN then .eq else .gt
  else if b.isNaN then .lt
  else .eq

/-- The place of a number in the order by value and sign, in which negative zero comes before zero.
The pattern of bits without the sign grows with the magnitude. -/
def signedRank (x : Float) : Int :=
  let bits := x.toBits.toNat
  if bits < Binary64.signBit then bits else -(bits - Binary64.signBit : Nat) - 1

/-- Numbers by value and sign. -/
def compareSigned (a b : Float) : Ordering := compare (signedRank a) (signedRank b)

end Guillotine
