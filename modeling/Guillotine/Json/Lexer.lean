import Guillotine.Json.Basic

/-! The tokens of a document. The lexer goes through the text one character at a time, so it is a
fold of one step over the text. A token that has no closing mark of its own, such as a number, ends
with the first character that cannot belong to it, and that character is looked at again. -/
namespace Guillotine

/-- A token: a mark, a string literal, or another scalar. -/
inductive Token where
  | openArray
  | closeArray
  | openObject
  | closeObject
  | comma
  | colon
  | literal (s : Literal)
  | scalar (j : Json)

namespace Lexer

/-! ### Numbers -/

/-- How far a number has been read: its sign, the digits so far as one natural number, how many of
them are behind the point, and the exponent. -/
inductive NumberState where
  | minus
  | zero (negative : Bool)
  | whole (negative : Bool) (n : Nat)
  | point (negative : Bool) (n : Nat)
  | fraction (negative : Bool) (n places : Nat)
  | mark (negative : Bool) (n places : Nat)
  | markSign (negative : Bool) (n places : Nat) (below : Bool)
  | exponent (negative : Bool) (n places : Nat) (below : Bool) (e : Nat)

/-- The value of a decimal digit. -/
def digit? (c : Char) : Option Nat :=
  if '0' ≤ c ∧ c ≤ '9' then some (c.toNat - '0'.toNat) else none

namespace NumberState

/-- Go on with a digit. A leading zero stands alone. -/
def digit (d : Nat) : NumberState → Option NumberState
  | minus => some (if d = 0 then zero true else whole true d)
  | zero _ => none
  | whole s n => some (whole s (10 * n + d))
  | point s n => some (fraction s (10 * n + d) 1)
  | fraction s n p => some (fraction s (10 * n + d) (p + 1))
  | mark s n p => some (exponent s n p false d)
  | markSign s n p b => some (exponent s n p b d)
  | exponent s n p b e => some (exponent s n p b (10 * e + d))

/-- Go on with another character, if it can belong to the number. -/
def mark? (c : Char) : NumberState → Option NumberState
  | zero s =>
    if c = '.' then some (point s 0)
    else if c = 'e' ∨ c = 'E' then some (mark s 0 0)
    else none
  | whole s n =>
    if c = '.' then some (point s n)
    else if c = 'e' ∨ c = 'E' then some (mark s n 0)
    else none
  | fraction s n p => if c = 'e' ∨ c = 'E' then some (mark s n p) else none
  | mark s n p =>
    if c = '+' then some (markSign s n p false)
    else if c = '-' then some (markSign s n p true)
    else none
  | _ => none

/-- Go on with a character, if it can belong to the number. -/
def step (s : NumberState) (c : Char) : Option NumberState :=
  match digit? c with
  | some d => s.digit d
  | none => s.mark? c

def decimal (negative : Bool) (n : Nat) (e : Int) : Numeral :=
  let (m, e) := Shortest.canonical n e
  .decimal negative m e

/-- The number, if it may end here. A negative zero is no integer. -/
def finish : NumberState → Option Numeral
  | zero false => some (.integer 0)
  | zero true => some (.decimal true 0 0)
  | whole s n => some (.integer (if s then -n else n))
  | fraction s n p => some (decimal s n (-p))
  | exponent s n p b e => some (decimal s n ((if b then -(e : Int) else e) - p))
  | _ => none

end NumberState

/-! ### Strings -/

/-- What is expected next inside a string literal. -/
inductive Escape where
  | none
  | backslash
  /-- Hexadecimal digits of a code unit read so far, and their value. -/
  | unicode (count value : Nat)

/-- How far a string literal has been read: its characters in reverse, a high surrogate that waits
for its low one, and whether something in it denotes no text. -/
structure StringState where
  done : List Char
  high : Option Nat
  broken : Bool
  escape : Escape

namespace StringState

def start : StringState := ⟨[], none, false, .none⟩

/-- Go on with a character. A surrogate that still waits was alone. -/
def push (s : StringState) (c : Char) : StringState :=
  { s with done := c :: s.done, high := none, broken := s.broken || s.high.isSome,
           escape := .none }

/-- Go on with something that is no character. -/
def spoil (s : StringState) : StringState :=
  { s with high := none, broken := true, escape := .none }

/-- Go on with a code unit. -/
def pushUnit (s : StringState) (u : Nat) : StringState :=
  if 0xD800 ≤ u ∧ u < 0xDC00 then
    { s with high := some u, broken := s.broken || s.high.isSome, escape := .none }
  else if 0xDC00 ≤ u ∧ u < 0xE000 then
    match s.high with
    | some h =>
      { s with done := Char.ofNat (0x10000 + (h - 0xD800) * 0x400 + (u - 0xDC00)) :: s.done
               high := none, escape := .none }
    | none => s.spoil
  else s.push (Char.ofNat u)

def hexDigit? (c : Char) : Option Nat :=
  if '0' ≤ c ∧ c ≤ '9' then some (c.toNat - '0'.toNat)
  else if 'a' ≤ c ∧ c ≤ 'f' then some (c.toNat - 'a'.toNat + 10)
  else if 'A' ≤ c ∧ c ≤ 'F' then some (c.toNat - 'A'.toNat + 10)
  else none

/-- The character of an escape with one letter. -/
def escaped? (c : Char) : Option Char :=
  if c = '"' ∨ c = '\\' ∨ c = '/' then some c
  else if c = 'b' then some '\x08'
  else if c = 'f' then some '\x0c'
  else if c = 'n' then some '\n'
  else if c = 'r' then some '\r'
  else if c = 't' then some '\t'
  else none

/-- Go on with a character that does not close the literal. -/
def step (s : StringState) (c : Char) : Option StringState :=
  match s.escape with
  | .none =>
    if c = '\\' then some { s with escape := .backslash }
    else if c.toNat < 0x20 then none
    else some (s.push c)
  | .backslash =>
    if c = 'u' then some { s with escape := .unicode 0 0 }
    else (escaped? c).map s.push
  | .unicode count value => do
    let value := 16 * value + (← hexDigit? c)
    return if count = 3 then s.pushUnit value else { s with escape := .unicode (count + 1) value }

/-- Whether a quote closes the literal here. -/
def open? (s : StringState) : Bool :=
  match s.escape with
  | .none => true
  | _ => false

/-- The literal. -/
def finish (s : StringState) : Literal :=
  if s.broken || s.high.isSome then none else some (String.ofList s.done.reverse)

end StringState

/-! ### Tokens -/

/-- What the lexer is reading. -/
inductive Mode where
  | between
  /-- A word, with the letters it still needs. -/
  | word (rest : List Char) (value : Json)
  | number (s : NumberState)
  | string (s : StringState)

/-- The mode, and the tokens so far in reverse. -/
structure State where
  mode : Mode
  tokens : List Token

def start : State := ⟨.between, []⟩

/-- A character between tokens. -/
def stepBetween (tokens : List Token) (c : Char) : Option State :=
  let emit (t : Token) : Option State := some ⟨.between, t :: tokens⟩
  if c = ' ' ∨ c = '\n' ∨ c = '\t' ∨ c = '\r' then some ⟨.between, tokens⟩
  else if c = '[' then emit .openArray
  else if c = ']' then emit .closeArray
  else if c = '{' then emit .openObject
  else if c = '}' then emit .closeObject
  else if c = ',' then emit .comma
  else if c = ':' then emit .colon
  else if c = '"' then some ⟨.string .start, tokens⟩
  else if c = 'n' then some ⟨.word ['u', 'l', 'l'] .null, tokens⟩
  else if c = 't' then some ⟨.word ['r', 'u', 'e'] (.bool true), tokens⟩
  else if c = 'f' then some ⟨.word ['a', 'l', 's', 'e'] (.bool false), tokens⟩
  else if c = '-' then some ⟨.number .minus, tokens⟩
  else
    match digit? c with
    | some d => some ⟨.number (if d = 0 then .zero false else .whole false d), tokens⟩
    | none => none

/-- A character, or a byte that belongs to none; the latter only inside a string literal, and not
inside an escape. -/
def step (s : State) (g : Option Char) : Option State :=
  match s.mode, g with
  | .between, some c => stepBetween s.tokens c
  | .word (w :: rest) value, some c =>
    if c = w then
      some (if rest = [] then ⟨.between, .scalar value :: s.tokens⟩
        else ⟨.word rest value, s.tokens⟩)
    else none
  | .number n, some c =>
    match n.step c with
    | some n => some ⟨.number n, s.tokens⟩
    | none => do
      let value ← n.finish
      stepBetween (.scalar (.number value) :: s.tokens) c
  | .string l, some c =>
    if c = '"' ∧ l.open? then some ⟨.between, .literal l.finish :: s.tokens⟩
    else (l.step c).map fun l => ⟨.string l, s.tokens⟩
  | .string l, none => if l.open? then some ⟨.string l.spoil, s.tokens⟩ else none
  | _, _ => none

/-- The tokens, if the text may end here. -/
def finish (s : State) : Option (List Token) :=
  match s.mode with
  | .between => some s.tokens.reverse
  | .number n => n.finish.map fun value => (.scalar (.number value) :: s.tokens).reverse
  | _ => none

/-- The tokens of a text. -/
def tokens? (text : List (Option Char)) : Option (List Token) := do
  finish (← text.foldlM step start)

end Lexer

end Guillotine
