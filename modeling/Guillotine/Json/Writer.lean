import Guillotine.Json.Basic

/-! Documents as text, compact on one line or indented by two spaces. A decimal is positional
while the exponent of its leading digit is between -5 and 15, and always has a fraction then; else
it has an exponent with a sign. -/
namespace Guillotine

/-! ### Numbers and strings -/

/-- Where positional writing of decimals begins and ends. -/
structure DecimalFormat where
  leastExponent : Int
  greatestExponent : Int

/-- Decimals in documents. -/
def Json.decimals : DecimalFormat := ⟨-5, 15⟩

namespace Numeral

/-- The digits of a natural number. -/
def digits (n : Nat) : List Char := Nat.toDigits 10 n

/-- A decimal with a point: digits, then at least one digit of fraction. -/
def positional (ds : List Char) (exponent : Int) : List Char :=
  if 0 ≤ exponent then ds ++ List.replicate exponent.toNat '0' ++ ['.', '0']
  else
    let whole := (ds.length : Int) + exponent
    if 0 < whole then ds.take whole.toNat ++ '.' :: ds.drop whole.toNat
    else '0' :: '.' :: List.replicate (-whole).toNat '0' ++ ds

/-- A decimal with an exponent: one digit, a fraction if there are more, and a sign always. -/
def scientific (ds : List Char) (lead : Int) : List Char :=
  let mantissa :=
    match ds with
    | d :: rest@(_ :: _) => d :: '.' :: rest
    | _ => ds
  mantissa ++ 'e' :: (if lead < 0 then '-' else '+') :: digits lead.natAbs

/-- The text of a number. -/
def write : Numeral → List Char
  | .integer n => if n < 0 then '-' :: digits n.natAbs else digits n.natAbs
  | .decimal negative mantissa exponent =>
    let ds := digits mantissa
    let lead := exponent + ds.length - 1
    let body :=
      if Json.decimals.leastExponent ≤ lead ∧ lead ≤ Json.decimals.greatestExponent then
        positional ds exponent
      else scientific ds lead
    if negative then '-' :: body else body

end Numeral

namespace Literal

/-- A character inside quotes. Quotes, backslashes and control characters are escaped. -/
def escape (c : Char) : List Char :=
  if c = '"' then ['\\', '"']
  else if c = '\\' then ['\\', '\\']
  else if c = '\n' then ['\\', 'n']
  else if c = '\r' then ['\\', 'r']
  else if c = '\t' then ['\\', 't']
  else if c = '\x08' then ['\\', 'b']
  else if c = '\x0c' then ['\\', 'f']
  else if c.toNat < 0x20 then
    ['\\', 'u', '0', '0', Nat.digitChar (c.toNat / 16), Nat.digitChar (c.toNat % 16)]
  else [c]

/-- A literal in quotes. One without a text is written as half of a surrogate pair. -/
def write : Literal → List Char
  | some s => '"' :: s.toList.flatMap escape ++ ['"']
  | none => ['"', '\\', 'u', 'd', '8', '0', '0', '"']

end Literal

/-! ### Trees -/

namespace Json

mutual

/-- A tree without any space. -/
def write : Json → List Char
  | .null => ['n', 'u', 'l', 'l']
  | .bool true => ['t', 'r', 'u', 'e']
  | .bool false => ['f', 'a', 'l', 's', 'e']
  | .number n => n.write
  | .string s => Literal.write s
  | .array items => '[' :: writeItems items ++ [']']
  | .object members => '{' :: writeMembers members ++ ['}']

/-- Items with commas between them. -/
def writeItems : List Json → List Char
  | [] => []
  | [j] => write j
  | j :: js => write j ++ ',' :: writeItems js

/-- Members with commas between them. -/
def writeMembers : List (Literal × Json) → List Char
  | [] => []
  | [(k, j)] => Literal.write k ++ ':' :: write j
  | (k, j) :: ms => Literal.write k ++ ':' :: write j ++ ',' :: writeMembers ms

end

/-- The text of a tree on one line. -/
def compact (j : Json) : String := String.ofList j.write

/-- A line break and the indentation of a depth. -/
def newline (depth : Nat) : List Char := '\n' :: List.replicate (2 * depth) ' '

mutual

/-- A tree with each item and member on a line of its own. -/
def writeIndented (depth : Nat) : Json → List Char
  | .array [] => ['[', ']']
  | .array items@(_ :: _) => '[' :: indentedItems (depth + 1) items ++ newline depth ++ [']']
  | .object [] => ['{', '}']
  | .object members@(_ :: _) =>
    '{' :: indentedMembers (depth + 1) members ++ newline depth ++ ['}']
  | .null => write .null
  | .bool b => write (.bool b)
  | .number n => n.write
  | .string s => Literal.write s

def indentedItems (depth : Nat) : List Json → List Char
  | [] => []
  | [j] => newline depth ++ writeIndented depth j
  | j :: js => newline depth ++ writeIndented depth j ++ ',' :: indentedItems depth js

def indentedMembers (depth : Nat) : List (Literal × Json) → List Char
  | [] => []
  | [(k, j)] => newline depth ++ Literal.write k ++ ':' :: ' ' :: writeIndented depth j
  | (k, j) :: ms =>
    newline depth ++ Literal.write k ++ ':' :: ' ' :: writeIndented depth j ++
      ',' :: indentedMembers depth ms

end

/-- The text of a tree, indented. -/
def indented (j : Json) : String := String.ofList (writeIndented 0 j)

end Json

end Guillotine
