import Guillotine.Plan.Packer
import Guillotine.Request.Basic

/-! What a request asks for, after its materials and cuts have been checked. Cut number `i`,
counted from one in the order of the request, becomes the piece `c` followed by `i`. -/
namespace Guillotine

/-- A checked request. -/
structure Demand where
  project : String
  pieces : List Piece
  materials : List Material
  saw : Saw

namespace Request

/-- The piece that the cut at position `i` asks for. -/
def piece (i : Nat) (c : Cut) : Piece where
  id := s!"c{i + 1}"
  material := c.material
  width := c.width
  height := c.height
  quantity := c.quantity
  canRotate := c.allowRotation
  priority := c.priority
  grain := c.grain
  label := c.label

def pieces (r : Request) : List Piece := r.cuts.mapIdx piece

/-- The first entry of a list that is equal to an earlier one. -/
def firstRepeated (seen : List String) : List String → Option String
  | [] => none
  | s :: ss => if seen.contains s then some s else firstRepeated (s :: seen) ss

/-- Check every material by itself, then that no code is repeated, then every piece. -/
def check (r : Request) : Except Rejection Unit := do
  r.materials.forM Material.validate
  match firstRepeated [] (r.materials.map Material.code) with
  | some code => throw (.invalidMaterial code .repeatedCode)
  | none => r.pieces.forM Piece.validate

/-- The codes of materials that no cut mentions. -/
def unusedCodes (r : Request) : List String :=
  (r.materials.map Material.code).filter fun code => !r.cuts.any fun c => c.material == code

/-- Check a request. Materials that no cut mentions are worth a warning. -/
def demand (r : Request) : Packing Demand := do
  ExceptT.mk (pure r.check)
  let unused := r.unusedCodes
  unless unused.isEmpty do
    Logged.note .warn fun _ =>
      "[IO] materials not referenced by any cut: " ++ ", ".intercalate unused
  return ⟨r.project, r.pieces, r.materials, r.saw⟩

end Request

end Guillotine
