import Guillotine.Json.Codec
import Guillotine.Stock.Piece

/-! Written forms of materials, saws, pieces and items. -/
namespace Guillotine

namespace Grain

def ofToken? (s : String) : Option Grain :=
  if s = "h" then some .horizontal else if s = "v" then some .vertical else none

end Grain

instance : ToJson Grain := ⟨fun g => .text g.token⟩
instance : OfJson Grain := ⟨Json.choice? Grain.ofToken?⟩

instance : ToJson Material where
  toJson m := .record [("code", toJson m.code), ("width", toJson m.width),
    ("height", toJson m.height), ("thickness", toJson m.thickness),
    ("cost_per_unit", toJson m.cost), ("grain", toJson m.grain)]

instance : OfJson Material where
  ofJson? j := do
    let f ← j.fields? ["code", "width", "height", "thickness", "cost_per_unit", "grain"]
    return {
      code := ← f.required "code"
      width := ← f.required "width"
      height := ← f.required "height"
      thickness := ← f.required "thickness"
      cost := ← f.required "cost_per_unit"
      grain := ← f.optional "grain" }

namespace Saw

/-- The fields of a saw in order. -/
def fieldNames : List String := ["kerf", "top_trim", "bottom_trim", "left_trim", "right_trim"]

end Saw

instance : ToJson Saw where
  toJson s := .record [("kerf", toJson s.kerf), ("top_trim", toJson s.topTrim),
    ("bottom_trim", toJson s.bottomTrim), ("left_trim", toJson s.leftTrim),
    ("right_trim", toJson s.rightTrim)]

instance : OfJson Saw where
  ofJson? j := do
    let f ← j.fields? Saw.fieldNames
    return ⟨← f.required "kerf", ← f.required "top_trim", ← f.required "bottom_trim",
      ← f.required "left_trim", ← f.required "right_trim"⟩

instance : ToJson Piece where
  toJson p := .record [("id", toJson p.id), ("material", toJson p.material),
    ("width", toJson p.width), ("height", toJson p.height), ("quantity", toJson p.quantity),
    ("can_rotate", toJson p.canRotate), ("priority", toJson p.priority),
    ("grain", toJson p.grain), ("label", toJson p.label)]

instance : OfJson Piece where
  ofJson? j := do
    let f ← j.fields? ["id", "material", "width", "height", "quantity", "can_rotate", "priority",
      "grain", "label"]
    return {
      id := ← f.required "id"
      material := ← f.required "material"
      width := ← f.required "width"
      height := ← f.required "height"
      quantity := ← f.required "quantity"
      canRotate := ← f.required "can_rotate"
      priority := ← f.required "priority"
      grain := ← f.optional "grain"
      label := ← f.optional "label" }

instance : ToJson Item where
  toJson i := .record [("id", toJson i.id), ("material", toJson i.material),
    ("width", toJson i.width), ("height", toJson i.height), ("can_rotate", toJson i.canRotate),
    ("priority", toJson i.priority), ("grain", toJson i.grain), ("label", toJson i.label)]

instance : OfJson Item where
  ofJson? j := do
    let f ← j.fields? ["id", "material", "width", "height", "can_rotate", "priority", "grain",
      "label"]
    return {
      id := ← f.required "id"
      material := ← f.required "material"
      width := ← f.required "width"
      height := ← f.required "height"
      canRotate := ← f.required "can_rotate"
      priority := ← f.required "priority"
      grain := ← f.optional "grain"
      label := ← f.optional "label" }

end Guillotine
