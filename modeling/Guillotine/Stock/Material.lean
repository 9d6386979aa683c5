import Guillotine.Plane.Rect
import Guillotine.Stock.Rejection

/-! Sheet materials, the saw that cuts them, and what the saw leaves usable of a sheet. -/
namespace Guillotine

/-- The direction of a grain. -/
inductive Grain where
  | horizontal
  | vertical
deriving DecidableEq, Repr

/-- The name of a grain in a document. -/
def Grain.token : Grain → String
  | .horizontal => "h"
  | .vertical => "v"

/-- The name of a grain or of its absence. -/
def grainToken : Option Grain → String
  | some g => g.token
  | none => "none"

/-- A kind of sheet; any number of equal sheets can be cut from it. -/
structure Material where
  code : String
  width : Length
  height : Length
  thickness : Length
  /-- The price of one sheet. -/
  cost : Float
  grain : Option Grain

namespace Material

def area (m : Material) : Area := Length.times m.width m.height

/-- The first flaw of a material by itself. -/
def flaw? (m : Material) : Option MaterialFlaw :=
  if m.code = "" then some .noCode
  else if m.width = 0 ∨ m.height = 0 then some .emptySide
  else if !m.cost.isFinite || m.cost < 0 then some .badCost
  else none

def validate (m : Material) : Except Rejection Unit :=
  match m.flaw? with
  | some flaw => .error (.invalidMaterial m.code flaw)
  | none => .ok ()

end Material

/-! ### Catalogs -/

/-- Materials looked up by code. -/
abbrev Catalog := String → Option Material

namespace Catalog

/-- The first material of a list with a code. -/
def ofList (ms : List Material) : Catalog := fun code => ms.find? fun m => m.code = code

/-- The last material of a list with a code, as where later entries replace earlier ones. -/
def ofReplacing (ms : List Material) : Catalog := ofList ms.reverse

end Catalog

/-! ### The saw -/

/-- The width of the blade and the margins cut off a sheet before anything else. -/
structure Saw where
  kerf : Length
  topTrim : Length
  bottomTrim : Length
  leftTrim : Length
  rightTrim : Length
deriving DecidableEq, Repr

namespace Saw

/-- What both trims take of the width. -/
def sideTrims (s : Saw) : Nat := s.leftTrim.toNat + s.rightTrim.toNat

/-- What both trims take of the height. -/
def endTrims (s : Saw) : Nat := s.topTrim.toNat + s.bottomTrim.toNat

/-- The region of a sheet inside its trims. It has to have an extent along both axes, the
horizontal one being asked for first. -/
def usable (s : Saw) (m : Material) : Except Rejection Rect :=
  if m.width.toNat ≤ s.sideTrims then
    .error (.noUsableSpace m.code .horizontal (cut s.sideTrims) m.width)
  else if m.height.toNat ≤ s.endTrims then
    .error (.noUsableSpace m.code .vertical (cut s.endTrims) m.height)
  else
    .ok ⟨s.leftTrim, s.topTrim, m.width - UInt32.ofNat s.sideTrims,
      m.height - UInt32.ofNat s.endTrims⟩
where
  /-- A pair of trims as a length, cut off at the longest. -/
  cut (n : Nat) : Length := UInt32.ofNat (min n (UInt32.size - 1))

end Saw

end Guillotine
