import Guillotine.Calendar.TimestampReader
import Guillotine.Json.Codec

/-! The written form of points in time: a text. -/
namespace Guillotine

instance : ToJson Timestamp := ⟨fun t => .text t.text⟩

instance : OfJson Timestamp where
  ofJson? j := do Timestamp.ofText? (← ofJson? j)

end Guillotine
