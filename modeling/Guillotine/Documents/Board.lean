import Guillotine.Board.Layout
import Guillotine.Documents.Stock

/-! Written forms of rectangles, placements and layouts. -/
namespace Guillotine

instance : ToJson Rect where
  toJson r := .record [("x", toJson r.x), ("y", toJson r.y), ("width", toJson r.width),
    ("height", toJson r.height)]

instance : OfJson Rect where
  ofJson? j := do
    let f ← j.fields? ["x", "y", "width", "height"]
    return ⟨← f.required "x", ← f.required "y", ← f.required "width", ← f.required "height"⟩

instance : ToJson Placement where
  toJson p := .record [("piece_id", toJson p.item), ("label", toJson p.label),
    ("x", toJson p.x), ("y", toJson p.y), ("width", toJson p.width),
    ("height", toJson p.height), ("rotated", toJson p.rotated)]

instance : OfJson Placement where
  ofJson? j := do
    let f ← j.fields? ["piece_id", "label", "x", "y", "width", "height", "rotated"]
    return {
      item := ← f.required "piece_id"
      label := ← f.optional "label"
      x := ← f.required "x"
      y := ← f.required "y"
      width := ← f.required "width"
      height := ← f.required "height"
      rotated := ← f.required "rotated" }

instance : ToJson Layout where
  toJson l := .record [("material", toJson l.material), ("index", toJson l.index),
    ("usable", toJson l.usable), ("placed", toJson l.placed),
    ("remainders", toJson l.remainders)]

instance : OfJson Layout where
  ofJson? j := do
    let f ← j.fields? ["material", "index", "usable", "placed", "remainders"]
    return {
      material := ← f.required "material"
      index := ← f.required "index"
      usable := ← f.required "usable"
      placed := ← f.required "placed"
      remainders := ← f.required "remainders" }

end Guillotine
