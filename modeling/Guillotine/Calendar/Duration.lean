/-! Spans of time as a stopwatch shows them. -/
namespace Guillotine

/-- A span of time: whole seconds, and nanoseconds below one second. -/
structure Duration where
  seconds : UInt64
  nanoseconds : UInt32
deriving DecidableEq, Repr

namespace Duration

/-- How many nanoseconds a second has. -/
def nanosPerSecond : Nat := 1000000000

/-- A span of time in seconds. -/
def toFloat (d : Duration) : Float :=
  d.seconds.toFloat + d.nanoseconds.toNat.toFloat / 1e9

end Duration

end Guillotine
