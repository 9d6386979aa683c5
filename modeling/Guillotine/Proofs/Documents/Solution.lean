import Guillotine.Batch.Solution
import Guillotine.Proofs.Documents.Report
import Guillotine.Proofs.Documents.Stock

/-! Requests, settings and whole solutions are read back from their texts. What a request leaves out
is written with its default, and is the same when it is read again. -/
namespace Guillotine

open Json (fields?_record optionalMember proper_record)

/-! ### Requests -/

/-- A grain where there may be one. -/
@[simp] theorem ofJson?_toJson_grain (g : Grain) :
    (ofJson? (toJson g) : Option (Option Grain)) = some (some g) := by
  cases g <;> rfl

instance : Document Cut where
  isFinite _ := true
  proper_toJson c := by
    apply proper_record
    have hgrain : ∀ g : Grain, (toJson g).Proper := fun g => .string (some g.token)
    cases c.label <;> cases c.grain <;> simp [optionalMember, proper_toJson, hgrain]
  ofJson?_toJson c := by
    obtain ⟨width, height, quantity, material, label, allowRotation, grain, priority⟩ := c
    show ((Json.record _).fields? _).bind _ = _
    cases label <;> cases grain <;>
      simp [optionalMember, fields?_record, Fields.required, Fields.withDefault, ofJson?_toJson]

namespace Request

theorem proper_materialToJson (m : Material) : (materialToJson m).Proper := by
  apply proper_record
  have hgrain : ∀ g : Grain, (toJson g).Proper := fun g => .string (some g.token)
  cases m.grain <;> simp [optionalMember, proper_toJson, hgrain]

theorem materialOfJson?_materialToJson (m : Material) :
    materialOfJson? (materialToJson m) = if isFinite m then some m else none := by
  obtain ⟨code, width, height, thickness, cost, grain⟩ := m
  have hcost : isFinite (Material.mk code width height thickness cost grain) = isFinite cost := rfl
  rw [hcost]
  show ((Json.record _).fields? _).bind _ = _
  cases grain <;>
    simp [optionalMember, fields?_record, Fields.required, Fields.withDefault, ofJson?_toJson] <;>
    cases isFinite cost <;> rfl

theorem itemsBy?_materials (ms : List Material) :
    (Json.array (ms.map materialToJson)).itemsBy? materialOfJson? =
      if isFinite ms then some ms else none :=
  mapM_map_eq_ite materialOfJson?_materialToJson ms

theorem sawOfJson?_toJson (s : Saw) : sawOfJson? (toJson s) = some s := by
  unfold sawOfJson?
  show ((Json.record _).fields? _).bind _ = _
  simp [fields?_record, Saw.fieldNames, Fields.withDefault, ofJson?_toJson]

end Request

instance : Document Request where
  isFinite r := isFinite r.materials
  proper_toJson r := by
    apply proper_record
    simp [proper_toJson, proper_array Request.proper_materialToJson]
  ofJson?_toJson r := by
    have hcuts : isFinite r.cuts = true := isFinite_list (fun _ => rfl) _
    show ((Json.record _).fields? _).bind _ = _
    simp [fields?_record, Fields.required, Fields.withDefault, ofJson?_toJson, hcuts,
      Request.itemsBy?_materials, Request.sawOfJson?_toJson]
    cases isFinite r.materials <;> rfl

/-! ### Settings -/

instance : Document SplitRule where
  isFinite _ := true
  proper_toJson r := .string (some r.token)
  ofJson?_toJson r := by cases r <;> rfl

instance : Document Settings where
  isFinite _ := true
  proper_toJson s := by
    apply proper_record
    simp [proper_toJson]
  ofJson?_toJson s := by
    have hrule : isFinite s.rule = true := rfl
    show ((Json.record _).fields? _).bind _ = _
    simp [fields?_record, Fields.withDefault, ofJson?_toJson, hrule]

instance : Document CacheSettings where
  isFinite _ := true
  proper_toJson s := by
    apply proper_record
    simp [proper_toJson]
  ofJson?_toJson s := by
    show ((Json.record _).fields? _).bind _ = _
    simp [fields?_record, Fields.withDefault, ofJson?_toJson]

instance : Document AppSettings where
  isFinite _ := true
  proper_toJson s := by
    apply proper_record
    simp [proper_toJson]
  ofJson?_toJson s := by
    have hpacking : isFinite s.packing = true := rfl
    have hcache : isFinite s.cache = true := rfl
    show ((Json.record _).fields? _).bind _ = _
    simp [fields?_record, Fields.withDefault, ofJson?_toJson, hpacking, hcache]

/-! ### Solutions -/

instance : Document Solution where
  isFinite s := isFinite s.request && isFinite s.report
  proper_toJson s := by
    apply proper_record
    simp [proper_toJson]
  ofJson?_toJson s := by
    have hsettings : isFinite s.settings = true := rfl
    show ((Json.record _).fields? _).bind _ = _
    simp [fields?_record, Fields.required, ofJson?_toJson, hsettings]
    cases isFinite s.request <;> cases isFinite s.report <;> rfl

end Guillotine
