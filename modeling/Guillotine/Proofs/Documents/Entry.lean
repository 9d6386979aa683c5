import Guillotine.Cache.Entry
import Guillotine.Proofs.Documents.Report

/-! Entries are read back from their texts. What is read has the digest and the result that were
written, and the point in time that is read from the text of the one that was written. -/
namespace Guillotine

open Json (fields?_record proper_record)

theorem Timestamp.ofJson?_text (s : String) :
    (ofJson? (Json.text s) : Option Timestamp) = ofText? s :=
  rfl

namespace Entry

variable {e f : Entry}

theorem proper_toJson (e : Entry) : (toJson e).Proper := by
  apply proper_record
  simp only [List.forall_mem_cons, List.not_mem_nil, false_imp_iff, implies_true, and_true]
  exact ⟨Document.proper_toJson e.digest, .string (some _), Document.proper_toJson e.report⟩

theorem ofJson?_toJson (e : Entry) : (ofJson? (toJson e) : Option Entry) =
    (Timestamp.ofText? e.timestamp.text).bind fun t =>
      if isFinite e.report then some ⟨e.digest, t, e.report⟩ else none := by
  rw [← Timestamp.ofJson?_text]
  show ((Json.record [_, ("timestamp_utc", Json.text e.timestamp.text), _]).fields? _).bind _ = _
  generalize Json.text e.timestamp.text = time
  simp [fields?_record, Fields.required, Document.ofJson?_toJson]
  cases (ofJson? time : Option Timestamp) <;> cases isFinite e.report <;> rfl

/-- What is read from the text of an entry. -/
theorem read?_write (e : Entry) : (read? (write e) : Option Entry) =
    (Timestamp.ofText? e.timestamp.text).bind fun t =>
      if isFinite e.report then some ⟨e.digest, t, e.report⟩ else none := by
  unfold read? write
  rw [Json.ofString?_compact (proper_toJson e), Option.bind_eq_bind, Option.bind_some,
    ofJson?_toJson]

/-- Only the digest and the result that were written are read. -/
theorem eq_of_read?_write (h : read? (write e) = some f) :
    f.digest = e.digest ∧ f.report = e.report := by
  rw [read?_write] at h
  obtain ⟨t, -, ht⟩ := Option.bind_eq_some_iff.1 h
  split at ht
  · obtain rfl := Option.some.inj ht
    exact ⟨rfl, rfl⟩
  · cases ht

end Entry

end Guillotine
