import Guillotine.Json.Lexer
import Guillotine.Text

/-! The tree of a document. The parser goes through the tokens one at a time and keeps the arrays
and objects that are still open on a stack of its own, so no depth of nesting is too deep. -/
namespace Guillotine

namespace Parser

/-- Something that is still open, with its parts so far in reverse. -/
inductive Frame where
  | items (done : List Json)
  | members (done : List (Literal × Json))
  /-- A key that waits for its value. -/
  | member (key : Literal)

/-- What may come next. -/
inductive Expects where
  | value
  | firstValue
  | key
  | firstKey
  | colon
  | next
  | nothing (result : Json)

structure State where
  stack : List Frame
  expects : Expects

def start : State := ⟨[], .value⟩

/-- A value is complete: it goes into what is open around it. -/
def deliver (v : Json) : List Frame → Option State
  | [] => some ⟨[], .nothing v⟩
  | .items done :: fs => some ⟨.items (v :: done) :: fs, .next⟩
  | .member k :: .members done :: fs => some ⟨.members ((k, v) :: done) :: fs, .next⟩
  | _ => none

/-- A token where a value may start. -/
def stepValue (stack : List Frame) : Token → Option State
  | .scalar j => deliver j stack
  | .literal s => deliver (.string s) stack
  | .openArray => some ⟨.items [] :: stack, .firstValue⟩
  | .openObject => some ⟨.members [] :: stack, .firstKey⟩
  | _ => none

/-- A token where a key may start. -/
def stepKey (stack : List Frame) : Token → Option State
  | .literal k => some ⟨.member k :: stack, .colon⟩
  | _ => none

/-- The innermost open array or object is complete. -/
def close : Token → List Frame → Option State
  | .closeArray, .items done :: fs => deliver (.array done.reverse) fs
  | .closeObject, .members done :: fs => deliver (.object done.reverse) fs
  | _, _ => none

def step (s : State) (t : Token) : Option State :=
  match s.expects, t, s.stack with
  | .value, t, stack => stepValue stack t
  | .firstValue, .closeArray, stack => close .closeArray stack
  | .firstValue, t, stack => stepValue stack t
  | .key, t, stack => stepKey stack t
  | .firstKey, .closeObject, stack => close .closeObject stack
  | .firstKey, t, stack => stepKey stack t
  | .colon, .colon, stack => some ⟨stack, .value⟩
  | .next, .comma, .items done :: fs => some ⟨.items done :: fs, .value⟩
  | .next, .comma, .members done :: fs => some ⟨.members done :: fs, .key⟩
  | .next, t, stack => close t stack
  | _, _, _ => none

/-- The tree, if the document may end here. -/
def finish (s : State) : Option Json :=
  match s.expects with
  | .nothing result => some result
  | _ => none

/-- The tree of a list of tokens. -/
def parse? (ts : List Token) : Option Json := do
  finish (← ts.foldlM step start)

end Parser

namespace Json

/-- The tree of a text: exactly one value, with blanks around it. -/
def ofGlyphs? (text : List (Option Char)) : Option Json := do
  Parser.parse? (← Lexer.tokens? text)

def ofString? (s : String) : Option Json := ofGlyphs? (s.toList.map some)

def ofBytes? (bytes : ByteArray) : Option Json := ofGlyphs? (glyphs bytes)

end Json

end Guillotine
