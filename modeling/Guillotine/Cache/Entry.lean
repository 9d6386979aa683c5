import Guillotine.Documents.Report
import Guillotine.Documents.Timestamp

/-! What is known about a kept result: its digest, when it was kept, and the result itself. -/
namespace Guillotine

structure Entry where
  digest : String
  timestamp : Timestamp
  report : Report

instance : ToJson Entry where
  toJson e := .record [("request_hash", toJson e.digest), ("timestamp_utc", toJson e.timestamp),
    ("result", toJson e.report)]

instance : OfJson Entry where
  ofJson? j := do
    let f ← j.fields? ["request_hash", "timestamp_utc", "result"]
    return ⟨← f.required "request_hash", ← f.required "timestamp_utc", ← f.required "result"⟩

end Guillotine
