/-! Binary numbers of 64 bits taken apart: a sign, and a natural number times a power of two. All
decimal work is done on these parts, in exact arithmetic. -/
namespace Guillotine

/-- What a binary number of 64 bits stands for. -/
inductive Binary64 where
  | notANumber
  | infinite (negative : Bool)
  /-- `mantissa * 2 ^ exponent`, with a sign. -/
  | finite (negative : Bool) (mantissa : Nat) (exponent : Int)
deriving DecidableEq, Repr

namespace Binary64

/-- The bit of the sign. -/
def signBit : Nat := 9223372036854775808

/-- The leading bit of a full mantissa. It is not stored: the bits below it are. -/
def leadingBit : Nat := 4503599627370496

def ofFloat (x : Float) : Binary64 :=
  let bits := x.toBits.toNat
  let negative := decide (signBit ≤ bits)
  let biased := bits / leadingBit % 2048
  let fraction := bits % leadingBit
  if biased = 2047 then
    if fraction = 0 then infinite negative else notANumber
  else if biased = 0 then finite negative fraction (-1074)
  else finite negative (leadingBit + fraction) ((biased : Int) - 1075)

/-- Numerator and denominator of `mantissa * 2 ^ exponent`. -/
def ratio (mantissa : Nat) (exponent : Int) : Nat × Nat :=
  (mantissa * Nat.pow 2 exponent.toNat, Nat.pow 2 (-exponent).toNat)

end Binary64

end Guillotine
