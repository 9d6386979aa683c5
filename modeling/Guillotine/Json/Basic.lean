import Guillotine.Decimal.Shortest

/-! Documents as trees. A tree keeps what a reader of records has to judge by itself: the members
of an object in order, with repeated keys, and whether a number was written as an integer. -/
namespace Guillotine

/-- A number as it was written. The mantissa and exponent of a decimal are canonical: the mantissa
has no trailing zero, and the exponent of zero is zero. -/
inductive Numeral where
  | integer (value : Int)
  | decimal (negative : Bool) (mantissa : Nat) (exponent : Int)
deriving DecidableEq, Repr

/-- A string literal: its text, or `none` where the literal is grammatical but denotes no text,
having half of a surrogate pair or bytes that form no character. Such a literal may stand where
nobody reads it. -/
abbrev Literal := Option String

inductive Json where
  | null
  | bool (value : Bool)
  | number (value : Numeral)
  | string (value : Literal)
  | array (items : List Json)
  | object (members : List (Literal × Json))
deriving Repr

namespace Json

/-- A text. -/
def text (s : String) : Json := .string (some s)

/-- An object with the given members. -/
def record (members : List (String × Json)) : Json :=
  .object (members.map fun (k, v) => (some k, v))

def integer (n : Int) : Json := .number (.integer n)

/-- A binary number as the shortest decimal that reads back; what is no number is `null`. -/
def float (x : Float) : Json :=
  match Binary64.ofFloat x with
  | .finite negative mantissa exponent =>
    let (m, e) := shortestDecimal mantissa exponent
    .number (.decimal negative m e)
  | _ => .null

end Json

end Guillotine
