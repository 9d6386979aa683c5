import Guillotine.Documents.Board
import Guillotine.Report.Basic

/-! Written forms of reports. A label that is absent is left out. -/
namespace Guillotine

instance : ToJson CostRow where
  toJson r := .record [("material", toJson r.material), ("boards_used", toJson r.boards),
    ("unit_cost", toJson r.unitCost), ("total_cost", toJson r.totalCost)]

instance : OfJson CostRow where
  ofJson? j := do
    let f ← j.fields? ["material", "boards_used", "unit_cost", "total_cost"]
    return ⟨← f.required "material", ← f.required "boards_used", ← f.required "unit_cost",
      ← f.required "total_cost"⟩

instance : ToJson Costs where
  toJson c := .record [("materials", toJson c.rows), ("total_material_cost", toJson c.total)]

instance : OfJson Costs where
  ofJson? j := do
    let f ← j.fields? ["materials", "total_material_cost"]
    return ⟨← f.required "materials", ← f.required "total_material_cost"⟩

instance : ToJson Offcut where
  toJson o := .record [("x", toJson o.rect.x), ("y", toJson o.rect.y),
    ("width", toJson o.rect.width), ("height", toJson o.rect.height),
    ("reusable", toJson o.reusable)]

instance : OfJson Offcut where
  ofJson? j := do
    let f ← j.fields? ["x", "y", "width", "height", "reusable"]
    return ⟨⟨← f.required "x", ← f.required "y", ← f.required "width", ← f.required "height"⟩,
      ← f.required "reusable"⟩

namespace Report

/-- A placement as a report lists it. -/
def cutToJson (p : Placement) : Json := .record <|
  [("id", toJson p.item), ("x", toJson p.x), ("y", toJson p.y), ("width", toJson p.width),
    ("height", toJson p.height)] ++
  Json.optionalMember "label" p.label ++
  [("rotated", toJson p.rotated)]

def cutOfJson? (j : Json) : Option Placement := do
  let f ← j.fields? ["id", "x", "y", "width", "height", "label", "rotated"]
  return {
    item := ← f.required "id"
    x := ← f.required "x"
    y := ← f.required "y"
    width := ← f.required "width"
    height := ← f.required "height"
    label := ← f.withDefault "label" none
    rotated := ← f.required "rotated" }

end Report

instance : ToJson BoardReport where
  toJson b := .record [("material", toJson b.material), ("index", toJson b.index),
    ("cuts_placed", .array (b.cuts.map Report.cutToJson)),
    ("utilization_percentage", toJson b.utilization), ("waste_pieces", toJson b.offcuts)]

instance : OfJson BoardReport where
  ofJson? j := do
    let f ← j.fields? ["material", "index", "cuts_placed", "utilization_percentage",
      "waste_pieces"]
    return {
      material := ← f.required "material"
      index := ← f.required "index"
      cuts := ← (← f.get? "cuts_placed").itemsBy? Report.cutOfJson?
      utilization := ← f.required "utilization_percentage"
      offcuts := ← f.required "waste_pieces" }

instance : ToJson Unplaced where
  toJson u := .record <|
    [("id", toJson u.id), ("material", toJson u.material), ("width", toJson u.width),
      ("height", toJson u.height)] ++
    Json.optionalMember "label" u.label

instance : OfJson Unplaced where
  ofJson? j := do
    let f ← j.fields? ["id", "material", "width", "height", "label"]
    return ⟨← f.required "id", ← f.required "material", ← f.required "width",
      ← f.required "height", ← f.withDefault "label" none⟩

instance : ToJson Summary where
  toJson s := .record [("project_name", toJson s.project), ("total_boards_used", toJson s.boards),
    ("total_cost", toJson s.totalCost), ("total_waste_percentage", toJson s.wastePercentage),
    ("optimization_time", toJson s.time)]

instance : OfJson Summary where
  ofJson? j := do
    let f ← j.fields? ["project_name", "total_boards_used", "total_cost",
      "total_waste_percentage", "optimization_time"]
    return ⟨← f.required "project_name", ← f.required "total_boards_used",
      ← f.required "total_cost", ← f.required "total_waste_percentage",
      ← f.required "optimization_time"⟩

instance : ToJson Report where
  toJson r := .record [("optimization_summary", toJson r.summary),
    ("cost_summary", toJson r.costs), ("boards_layout", toJson r.boards),
    ("unplaced_cuts", toJson r.unplaced), ("cached", toJson r.cached),
    ("request_hash", toJson r.digest)]

instance : OfJson Report where
  ofJson? j := do
    let f ← j.fields? ["optimization_summary", "cost_summary", "boards_layout", "unplaced_cuts",
      "cached", "request_hash"]
    return ⟨← f.required "optimization_summary", ← f.required "cost_summary",
      ← f.required "boards_layout", ← f.withDefault "unplaced_cuts" [],
      ← f.withDefault "cached" false, ← f.withDefault "request_hash" ""⟩

end Guillotine
