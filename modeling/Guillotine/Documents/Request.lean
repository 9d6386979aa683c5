import Guillotine.Documents.Stock
import Guillotine.Request.Basic

/-! The written form of a request. Of a cut, only the size and the material have to be given, and
of a material, the code and the size. -/
namespace Guillotine

instance : ToJson Cut where
  toJson c := .record <|
    [("width", toJson c.width), ("height", toJson c.height), ("quantity", toJson c.quantity),
      ("material", toJson c.material)] ++
    Json.optionalMember "label" c.label ++
    [("allow_rotation", toJson c.allowRotation)] ++
    Json.optionalMember "force_grain" c.grain ++
    [("priority", toJson c.priority)]

instance : OfJson Cut where
  ofJson? j := do
    let f ← j.fields? ["width", "height", "quantity", "material", "label", "allow_rotation",
      "force_grain", "priority"]
    return {
      width := ← f.required "width"
      height := ← f.required "height"
      quantity := ← f.withDefault "quantity" 1
      material := ← f.required "material"
      label := ← f.withDefault "label" none
      allowRotation := ← f.withDefault "allow_rotation" true
      grain := ← f.withDefault "force_grain" none
      priority := ← f.withDefault "priority" 0 }

namespace Request

/-- A material as a request lists it. -/
def materialToJson (m : Material) : Json := .record <|
  [("code", toJson m.code), ("width", toJson m.width), ("height", toJson m.height),
    ("price", toJson m.cost)] ++
  Json.optionalMember "grain_direction" m.grain ++
  [("thickness", toJson m.thickness)]

def materialOfJson? (j : Json) : Option Material := do
  let f ← j.fields? ["code", "width", "height", "price", "grain_direction", "thickness"]
  return {
    code := ← f.required "code"
    width := ← f.required "width"
    height := ← f.required "height"
    cost := ← f.withDefault "price" (0 : Float)
    grain := ← f.withDefault "grain_direction" none
    thickness := ← f.withDefault "thickness" 0 }

/-- No kerf and no trims. -/
def plainSaw : Saw := ⟨0, 0, 0, 0, 0⟩

/-- The saw as a request describes it: what is not said is zero. -/
def sawOfJson? (j : Json) : Option Saw := do
  let f ← j.fields? Saw.fieldNames
  return ⟨← f.withDefault "kerf" 0, ← f.withDefault "top_trim" 0,
    ← f.withDefault "bottom_trim" 0, ← f.withDefault "left_trim" 0,
    ← f.withDefault "right_trim" 0⟩

end Request

instance : ToJson Request where
  toJson r := .record [("project_name", toJson r.project), ("cuts", toJson r.cuts),
    ("materials", .array (r.materials.map Request.materialToJson)),
    ("cutting_parameters", toJson r.saw)]

instance : OfJson Request where
  ofJson? j := do
    let f ← j.fields? ["project_name", "cuts", "materials", "cutting_parameters"]
    return {
      project := ← f.withDefault "project_name" ""
      cuts := ← f.required "cuts"
      materials := ← (← f.get? "materials").itemsBy? Request.materialOfJson?
      saw := ← match f.get? "cutting_parameters" with
        | some j => Request.sawOfJson? j
        | none => some Request.plainSaw }

end Guillotine
