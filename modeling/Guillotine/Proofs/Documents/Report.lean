import Guillotine.Documents.Report
import Guillotine.Proofs.Json.Values

/-! Reports are read back from their texts. The numbers that a text can lose are costs and
percentages; everything else about a report is texts, lengths and counts. -/
namespace Guillotine

open Json (fields?_record optionalMember proper_record)

/-! ### Sheets -/

instance : Document Offcut where
  isFinite _ := true
  proper_toJson o := by
    apply proper_record
    simp [proper_toJson]
  ofJson?_toJson o := by
    show ((Json.record _).fields? _).bind _ = _
    simp [fields?_record, Fields.required, ofJson?_toJson]

namespace Report

theorem proper_cutToJson (p : Placement) : (cutToJson p).Proper := by
  apply proper_record
  cases p.label <;> simp [optionalMember, proper_toJson]

theorem cutOfJson?_cutToJson (p : Placement) : cutOfJson? (cutToJson p) = some p := by
  obtain ⟨item, label, x, y, width, height, rotated⟩ := p
  show ((Json.record _).fields? _).bind _ = _
  cases label <;>
    simp [optionalMember, fields?_record, Fields.required, Fields.withDefault, ofJson?_toJson]

theorem itemsBy?_cuts (ps : List Placement) :
    (Json.array (ps.map cutToJson)).itemsBy? cutOfJson? = some ps := by
  have h := mapM_map_eq_ite (p := fun _ => true) cutOfJson?_cutToJson ps
  rwa [if_pos (by simp)] at h

end Report

instance : Document BoardReport where
  isFinite b := isFinite b.utilization
  proper_toJson b := by
    apply proper_record
    simp [proper_toJson, proper_array Report.proper_cutToJson]
  ofJson?_toJson b := by
    have hoffcuts : isFinite b.offcuts = true := isFinite_list (fun _ => rfl) _
    show ((Json.record _).fields? _).bind _ = _
    simp [fields?_record, Fields.required, ofJson?_toJson, Report.itemsBy?_cuts, hoffcuts]
    cases isFinite b.utilization <;> rfl

instance : Document Unplaced where
  isFinite _ := true
  proper_toJson u := by
    apply proper_record
    cases u.label <;> simp [optionalMember, proper_toJson]
  ofJson?_toJson u := by
    obtain ⟨id, material, width, height, label⟩ := u
    show ((Json.record _).fields? _).bind _ = _
    cases label <;>
      simp [optionalMember, fields?_record, Fields.required, Fields.withDefault, ofJson?_toJson]

/-! ### Costs -/

instance : Document CostRow where
  isFinite r := isFinite r.unitCost && isFinite r.totalCost
  proper_toJson r := by
    apply proper_record
    simp [proper_toJson]
  ofJson?_toJson r := by
    show ((Json.record _).fields? _).bind _ = _
    simp [fields?_record, Fields.required, ofJson?_toJson]
    cases isFinite r.unitCost <;> cases isFinite r.totalCost <;> rfl

instance : Document Costs where
  isFinite c := isFinite c.rows && isFinite c.total
  proper_toJson c := by
    apply proper_record
    simp [proper_toJson]
  ofJson?_toJson c := by
    show ((Json.record _).fields? _).bind _ = _
    simp [fields?_record, Fields.required, ofJson?_toJson]
    cases isFinite c.rows <;> cases isFinite c.total <;> rfl

/-! ### Whole reports -/

instance : Document Summary where
  isFinite s := isFinite s.totalCost && isFinite s.wastePercentage
  proper_toJson s := by
    apply proper_record
    simp [proper_toJson]
  ofJson?_toJson s := by
    show ((Json.record _).fields? _).bind _ = _
    simp [fields?_record, Fields.required, ofJson?_toJson]
    cases isFinite s.totalCost <;> cases isFinite s.wastePercentage <;> rfl

instance : Document Report where
  isFinite r := isFinite r.summary && isFinite r.costs && isFinite r.boards
  proper_toJson r := by
    apply proper_record
    simp [proper_toJson]
  ofJson?_toJson r := by
    have hunplaced : isFinite r.unplaced = true := isFinite_list (fun _ => rfl) _
    show ((Json.record _).fields? _).bind _ = _
    simp [fields?_record, Fields.required, Fields.withDefault, ofJson?_toJson, hunplaced]
    cases isFinite r.summary <;> cases isFinite r.costs <;> cases isFinite r.boards <;> rfl

end Guillotine
