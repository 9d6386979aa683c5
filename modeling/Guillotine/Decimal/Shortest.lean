import Guillotine.Decimal.Binary64

/-! The shortest decimal of a binary number: of all decimals that lie in the interval of reals that
round to it, one with the fewest digits, and of these the nearest. The search tries one digit, then
two, and so on. On each decimal grid only the two neighbours of the number are candidates: if any
point of the grid lies in the interval, so does one of them. -/
namespace Guillotine

namespace Shortest

/-- The number of decimal digits of a natural number. -/
def digitCount (n : Nat) : Nat := (Nat.toDigits 10 n).length

/-- The exponent of the leading digit of the positive fraction `num / den`. -/
def leadingExponent (num den : Nat) : Int :=
  if den ≤ num then (digitCount (num / den) : Int) - 1
  else -(digitCount ((den + num - 1) / num - 1) : Int)

/-- Drop the trailing zeros of a mantissa, at most `fuel` of them. -/
def dropZeros : Nat → Nat → Int → Nat × Int
  | 0, m, e => (m, e)
  | fuel + 1, m, e =>
    if m = 0 then (0, 0)
    else if m % 10 = 0 then dropZeros fuel (m / 10) (e + 1)
    else (m, e)

/-- The canonical form of `mantissa * 10 ^ exponent`: no trailing zero in the mantissa, and
exponent zero for zero. -/
def canonical (mantissa : Nat) (exponent : Int) : Nat × Int :=
  dropZeros (digitCount mantissa + 1) mantissa exponent

/-- The number `mantissa * 2 ^ exponent` and the interval that rounds to it, as multiples of
`1 / scale` on the decimal grid of `10 ^ grid`. -/
structure Target where
  low : Nat
  value : Nat
  high : Nat
  /-- One step of the grid. -/
  scale : Nat
  /-- Whether the ends of the interval round to the number too. -/
  closed : Bool

namespace Target

/-- The lower half of the interval is a quarter step where the next number below has a smaller
exponent. -/
def onGrid (mantissa : Nat) (exponent grid : Int) : Target :=
  let unit := Nat.pow 2 (exponent - 2).toNat * Nat.pow 10 (-grid).toNat
  let below := if mantissa = Binary64.leadingBit ∧ -1074 < exponent then 1 else 2
  { low := (4 * mantissa - below) * unit
    value := 4 * mantissa * unit
    high := (4 * mantissa + 2) * unit
    scale := Nat.pow 2 (2 - exponent).toNat * Nat.pow 10 grid.toNat
    closed := mantissa % 2 = 0 }

/-- Whether a point of the grid lies in the interval. -/
def holds (t : Target) (d : Nat) : Bool :=
  if t.closed then t.low ≤ d * t.scale && d * t.scale ≤ t.high
  else t.low < d * t.scale && d * t.scale < t.high

/-- The grid point at or below the number. -/
def below (t : Target) : Nat := t.value / t.scale

/-- Of the two neighbours of the number on the grid, the nearer one in the interval; a tie goes to
the even one. -/
def choose (t : Target) : Option Nat :=
  let d := t.below
  match t.holds d, t.holds (d + 1) with
  | true, true =>
    let down := t.value - d * t.scale
    let up := (d + 1) * t.scale - t.value
    some (if down < up ∨ down = up ∧ d % 2 = 0 then d else d + 1)
  | true, false => some d
  | false, true => some (d + 1)
  | false, false => none

end Target

/-- The shortest decimal of the positive number `mantissa * 2 ^ exponent`, as a mantissa and an
exponent of ten. Seventeen digits always suffice. -/
def ofPositive (mantissa : Nat) (exponent : Int) : Nat × Int :=
  let (num, den) := Binary64.ratio mantissa exponent
  let lead := leadingExponent num den
  let found := (List.range 17).findSome? fun (k : Nat) =>
    let grid := lead - k
    ((Target.onGrid mantissa exponent grid).choose).map fun d => canonical d grid
  found.getD (mantissa, exponent)

end Shortest

/-- The shortest decimal of a magnitude. -/
def shortestDecimal (mantissa : Nat) (exponent : Int) : Nat × Int :=
  if mantissa = 0 then (0, 0) else Shortest.ofPositive mantissa exponent

end Guillotine
