import Guillotine.Decimal.Binary64

/-! Numbers with a fixed count of decimal places, and whole numbers with separators. A number is
rounded as the exact value that it is; halfway between two decimals it goes to the even one. -/
namespace Guillotine

namespace Fixed

/-- The quotient rounded to the nearest integer, halves to the even one. -/
def divToEven (num den : Nat) : Nat :=
  let q := num / den
  let r := num % den
  if 2 * r < den then q
  else if den < 2 * r then q + 1
  else if q % 2 = 0 then q else q + 1

/-- A natural number with at least `width` digits. -/
def padded (width n : Nat) : String :=
  let digits := Nat.toDigits 10 n
  String.ofList (List.replicate (width - digits.length) '0' ++ digits)

/-- A number with `places` decimal places, at least one. -/
def text (places : Nat) (x : Float) : String :=
  match Binary64.ofFloat x with
  | .notANumber => "NaN"
  | .infinite negative => if negative then "-inf" else "inf"
  | .finite negative mantissa exponent =>
    let (num, den) := Binary64.ratio mantissa exponent
    let unit := Nat.pow 10 places
    let n := divToEven (num * unit) den
    String.join [if negative then "-" else "", toString (n / unit), ".",
      padded places (n % unit)]

/-- The integer nearest to a number, halves away from zero, within the range of 64-bit integers;
zero for what is no number. -/
def toInteger (x : Float) : Int :=
  match Binary64.ofFloat x with
  | .notANumber => 0
  | .infinite negative => if negative then Int64.minValue.toInt else Int64.maxValue.toInt
  | .finite negative mantissa exponent =>
    let (num, den) := Binary64.ratio mantissa exponent
    let n : Int := (2 * num + den) / (2 * den)
    max Int64.minValue.toInt (min Int64.maxValue.toInt (if negative then -n else n))

/-- Digits in groups of three from the right. -/
def grouped : List Char → List Char
  | [] => []
  | c :: cs =>
    if cs.length % 3 = 0 ∧ cs ≠ [] then c :: ',' :: grouped cs else c :: grouped cs

/-- A whole number with commas between groups of three digits. -/
def withCommas (n : Int) : String :=
  let digits := String.ofList (grouped (Nat.toDigits 10 n.natAbs))
  if n < 0 then "-" ++ digits else digits

end Fixed

end Guillotine
