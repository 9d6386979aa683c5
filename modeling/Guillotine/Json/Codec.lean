import Guillotine.Decimal.Nearest
import Guillotine.Json.Parser
import Guillotine.Json.Writer

/-! Reading values out of documents and writing them. A record is an object with known keys, each
at most once, or an array of its fields in order. Unknown keys are skipped, values and all. A
missing field is refused, or has a default, or is an option and counts as absent where a key is
missing but not where an array is too short. -/
namespace Guillotine

/-- Values that can be written as a document. -/
class ToJson (α : Type) where
  toJson : α → Json

/-- Values that can be read from a document. -/
class OfJson (α : Type) where
  ofJson? : Json → Option α

export ToJson (toJson)
export OfJson (ofJson?)

/-! ### Plain values -/

instance : ToJson Bool := ⟨.bool⟩
instance : ToJson String := ⟨.text⟩
instance : ToJson UInt32 := ⟨fun n => .integer n.toNat⟩
instance : ToJson UInt64 := ⟨fun n => .integer n.toNat⟩
instance : ToJson Int32 := ⟨fun n => .integer n.toInt⟩
instance : ToJson Float := ⟨.float⟩
instance {α : Type} [ToJson α] : ToJson (List α) := ⟨fun xs => .array (xs.map toJson)⟩

instance {α : Type} [ToJson α] : ToJson (Option α) where
  toJson
    | some a => toJson a
    | none => .null

instance : OfJson Bool where
  ofJson?
    | .bool b => some b
    | _ => none

instance : OfJson String where
  ofJson?
    | .string s => s
    | _ => none

/-- An integer, written as one. -/
def Json.integer? : Json → Option Int
  | .number (.integer n) => some n
  | _ => none

instance : OfJson UInt32 where
  ofJson? j := do
    let n ← j.integer?
    if 0 ≤ n ∧ n.toNat < UInt32.size then some (UInt32.ofNat n.toNat) else none

instance : OfJson UInt64 where
  ofJson? j := do
    let n ← j.integer?
    if 0 ≤ n ∧ n.toNat < UInt64.size then some (UInt64.ofNat n.toNat) else none

instance : OfJson Int32 where
  ofJson? j := do
    let n ← j.integer?
    if Int32.minValue.toInt ≤ n ∧ n ≤ Int32.maxValue.toInt then some (Int32.ofInt n) else none

instance : OfJson Float where
  ofJson?
    | .number (.integer n) => nearestFloat? (n < 0) n.natAbs 0
    | .number (.decimal negative m e) => nearestFloat? negative m e
    | _ => none

instance {α : Type} [OfJson α] : OfJson (List α) where
  ofJson?
    | .array items => items.mapM ofJson?
    | _ => none

instance {α : Type} [OfJson α] : OfJson (Option α) where
  ofJson?
    | .null => some none
    | j => (ofJson? j).map some

/-! ### Records -/

/-- The fields of a record as found in a document. -/
structure Fields where
  found : List (String × Json)
  /-- Whether they were listed in order, without names. -/
  positional : Bool

namespace Fields

variable {α : Type} [OfJson α]

def get? (f : Fields) (name : String) : Option Json := f.found.lookup name

/-- A field that has to be there. -/
def required (f : Fields) (name : String) : Option α := do
  ofJson? (← f.get? name)

/-- A field with a default. -/
def withDefault (f : Fields) (name : String) (standard : α) : Option α :=
  match f.get? name with
  | some j => ofJson? j
  | none => some standard

/-- An optional field that may be left out only where fields have names. -/
def optional (f : Fields) (name : String) : Option (Option α) :=
  match f.get? name with
  | some j => ofJson? j
  | none => if f.positional then none else some none

end Fields

namespace Json

/-- The members with a name among `names`, if every key denotes a text and none of `names` is
repeated. -/
def members? (names : List String) (members : List (Literal × Json)) :
    Option (List (String × Json)) := do
  let named ← members.mapM fun (k, j) => k.map fun k => (k, j)
  let known := named.filter fun (k, _) => names.contains k
  if names.all fun n => (known.filter fun (k, _) => k == n).length ≤ 1 then some known else none

/-- The fields of a record with the given names. -/
def fields? (names : List String) : Json → Option Fields
  | .object members => (members? names members).map fun found => ⟨found, false⟩
  | .array items => if items.length ≤ names.length then some ⟨names.zip items, true⟩ else none
  | _ => none

/-- One of some names: a text, or an object whose only key it is, with the value `null`. -/
def choice? {α : Type} (ofToken? : String → Option α) : Json → Option α
  | .string s => s.bind ofToken?
  | .object [(k, .null)] => k.bind ofToken?
  | _ => none

/-- The items of an array, each read by `read`. -/
def itemsBy? {α : Type} (read : Json → Option α) : Json → Option (List α)
  | .array items => items.mapM read
  | _ => none

/-- A member that is left out where there is no value. -/
def optionalMember {α : Type} [ToJson α] (name : String) : Option α → List (String × Json)
  | some a => [(name, toJson a)]
  | none => []

end Json

/-- Read a value from a text. -/
def read? {α : Type} [OfJson α] (s : String) : Option α := do
  ofJson? (← Json.ofString? s)

/-- Write a value on one line. -/
def write {α : Type} [ToJson α] (a : α) : String := (toJson a).compact

end Guillotine
