import Guillotine.Decimal.Order
import Guillotine.Documents.Request
import Guillotine.Request.Sha256

/-! The canonical form of a request, in which only what can show in the result remains: materials
and cuts in a fixed order, no project name, no thickness, and a missing label the same as an empty
one. Its text has the keys of every object in lexicographic order, and its digest is the address
under which results are kept. -/
namespace Guillotine

/-! ### Canonical order -/

/-- Materials by code, size, price and grain. -/
def Material.compare (a b : Material) : Ordering :=
  (Ord.compare a.code b.code).then <|
  (Ord.compare a.width b.width).then <|
  (Ord.compare a.height b.height).then <|
  (compareValues a.cost b.cost).then <|
  Ord.compare (grainToken a.grain) (grainToken b.grain)

/-- Cuts by material, size, quantity, label and grain, then by rotation and priority. -/
def Cut.compare (a b : Cut) : Ordering :=
  (Ord.compare a.material b.material).then <|
  (Ord.compare a.width b.width).then <|
  (Ord.compare a.height b.height).then <|
  (Ord.compare a.quantity b.quantity).then <|
  (Ord.compare (a.label.getD "") (b.label.getD "")).then <|
  (Ord.compare (grainToken a.grain) (grainToken b.grain)).then <|
  (Ord.compare a.allowRotation b.allowRotation).then <|
  Ord.compare a.priority b.priority

/-- A request with its materials and cuts in canonical order. -/
def Request.ordered (r : Request) : Request where
  project := r.project
  materials := r.materials.mergeSort fun a b => (a.compare b).isLE
  cuts := r.cuts.mergeSort fun a b => (a.compare b).isLE
  saw := r.saw

/-! ### Canonical form -/

structure CanonicalMaterial where
  code : String
  width : Length
  height : Length
  price : Float
  grain : String

structure CanonicalCut where
  material : String
  width : Length
  height : Length
  quantity : Length
  label : String
  grain : String
  allowRotation : Bool
  priority : Int32
deriving DecidableEq

structure CanonicalRequest where
  materials : List CanonicalMaterial
  cuts : List CanonicalCut
  saw : Saw

def Material.canonical (m : Material) : CanonicalMaterial :=
  ⟨m.code, m.width, m.height, m.cost, grainToken m.grain⟩

def Cut.canonical (c : Cut) : CanonicalCut :=
  ⟨c.material, c.width, c.height, c.quantity, c.label.getD "", grainToken c.grain,
    c.allowRotation, c.priority⟩

/-- The canonical form of a request. -/
def Request.canonical (r : Request) : CanonicalRequest :=
  let o := r.ordered
  ⟨o.materials.map Material.canonical, o.cuts.map Cut.canonical, o.saw⟩

namespace CanonicalRequest

def materialToJson (m : CanonicalMaterial) : Json :=
  .record [("code", toJson m.code), ("grain_direction", toJson m.grain),
    ("height", toJson m.height), ("price", toJson m.price), ("width", toJson m.width)]

def cutToJson (c : CanonicalCut) : Json :=
  .record [("allow_rotation", toJson c.allowRotation), ("force_grain", toJson c.grain),
    ("height", toJson c.height), ("label", toJson c.label), ("material", toJson c.material),
    ("priority", toJson c.priority), ("quantity", toJson c.quantity), ("width", toJson c.width)]

def sawToJson (s : Saw) : Json :=
  .record [("bottom_trim", toJson s.bottomTrim), ("kerf", toJson s.kerf),
    ("left_trim", toJson s.leftTrim), ("right_trim", toJson s.rightTrim),
    ("top_trim", toJson s.topTrim)]

/-- The canonical text. -/
def text (r : CanonicalRequest) : String :=
  Json.compact <| .record [("cuts", .array (r.cuts.map cutToJson)),
    ("cutting_parameters", sawToJson r.saw),
    ("materials", .array (r.materials.map materialToJson))]

end CanonicalRequest

/-! ### Digests -/

/-- The address of a canonical request: sixty-four hexadecimal digits in lower case. -/
structure RequestDigest where
  hex : String
deriving DecidableEq, Repr

namespace RequestDigest

def ofCanonical (r : CanonicalRequest) : RequestDigest := ⟨Sha256.hex r.text⟩

def ofRequest (r : Request) : RequestDigest := ofCanonical r.canonical

def isHexDigit (c : Char) : Bool :=
  '0' ≤ c && c ≤ '9' || 'a' ≤ c && c ≤ 'f' || 'A' ≤ c && c ≤ 'F'

/-- Read an address; upper case is allowed. -/
def ofHex? (s : String) : Option RequestDigest :=
  if s.utf8ByteSize = 64 ∧ s.toList.all isHexDigit then
    some ⟨String.ofList (s.toList.map Char.toLower)⟩
  else none

/-- The key under which the result is kept. -/
def resultKey (d : RequestDigest) : String := "opt:" ++ d.hex

/-- The key under which the entry about the result is kept. -/
def entryKey (d : RequestDigest) : String := "optmeta:" ++ d.hex

end RequestDigest

end Guillotine
