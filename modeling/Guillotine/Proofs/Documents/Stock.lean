import Guillotine.Documents.Board
import Guillotine.Proofs.Json.Values

/-! Materials, saws, pieces and sheets are read back from their texts. Of all of these only the cost
of a material can be lost. -/
namespace Guillotine

open Json (fields?_record proper_record)

/-! ### Materials and saws -/

/-- A grain that may be absent. -/
instance : Document (Option Grain) where
  isFinite _ := true
  proper_toJson
    | some g => .string (some g.token)
    | none => .null
  ofJson?_toJson
    | some .horizontal => rfl
    | some .vertical => rfl
    | none => rfl

@[simp] theorem isFinite_grain (g : Option Grain) : isFinite g = true := rfl

instance : Document Material where
  isFinite m := isFinite m.cost
  proper_toJson m := by
    apply proper_record
    simp [proper_toJson]
  ofJson?_toJson m := by
    show ((Json.record _).fields? _).bind _ = _
    simp [fields?_record, Fields.required, Fields.optional, ofJson?_toJson]
    cases isFinite m.cost <;> rfl

instance : Document Saw where
  isFinite _ := true
  proper_toJson s := by
    apply proper_record
    simp [proper_toJson]
  ofJson?_toJson s := by
    show ((Json.record _).fields? _).bind _ = _
    simp [fields?_record, Saw.fieldNames, Fields.required, ofJson?_toJson]

/-! ### Pieces -/

instance : Document Piece where
  isFinite _ := true
  proper_toJson p := by
    apply proper_record
    simp [proper_toJson]
  ofJson?_toJson p := by
    show ((Json.record _).fields? _).bind _ = _
    simp [fields?_record, Fields.required, Fields.optional, ofJson?_toJson]

instance : Document Item where
  isFinite _ := true
  proper_toJson i := by
    apply proper_record
    simp [proper_toJson]
  ofJson?_toJson i := by
    show ((Json.record _).fields? _).bind _ = _
    simp [fields?_record, Fields.required, Fields.optional, ofJson?_toJson]

/-! ### Sheets -/

instance : Document Rect where
  isFinite _ := true
  proper_toJson r := by
    apply proper_record
    simp [proper_toJson]
  ofJson?_toJson r := by
    show ((Json.record _).fields? _).bind _ = _
    simp [fields?_record, Fields.required, ofJson?_toJson]

instance : Document Placement where
  isFinite _ := true
  proper_toJson p := by
    apply proper_record
    simp [proper_toJson]
  ofJson?_toJson p := by
    show ((Json.record _).fields? _).bind _ = _
    simp [fields?_record, Fields.required, Fields.optional, ofJson?_toJson]

instance : Document Layout where
  isFinite l := isFinite l.material
  proper_toJson l := by
    apply proper_record
    simp [proper_toJson]
  ofJson?_toJson l := by
    have husable : isFinite l.usable = true := rfl
    have hplaced : isFinite l.placed = true := isFinite_list (fun _ => rfl) _
    have hremainders : isFinite l.remainders = true := isFinite_list (fun _ => rfl) _
    show ((Json.record _).fields? _).bind _ = _
    simp [fields?_record, Fields.required, ofJson?_toJson, husable, hplaced, hremainders]
    cases isFinite l.material <;> rfl

end Guillotine
