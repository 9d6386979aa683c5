import Guillotine.Documents.Report
import Guillotine.Documents.Request
import Guillotine.Documents.Settings

/-! Solution files: a request, the report on it, and the settings it was made with. -/
namespace Guillotine

structure Solution where
  request : Request
  report : Report
  settings : Settings

instance : ToJson Solution where
  toJson s := .record [("request", toJson s.request), ("response", toJson s.report),
    ("config", toJson s.settings)]

instance : OfJson Solution where
  ofJson? j := do
    let f ← j.fields? ["request", "response", "config"]
    return ⟨← f.required "request", ← f.required "response", ← f.required "config"⟩

end Guillotine
