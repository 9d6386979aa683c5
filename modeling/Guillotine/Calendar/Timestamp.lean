import Guillotine.Calendar.Date
import Guillotine.Calendar.Duration
import Guillotine.Decimal.Fixed

/-! Points in time. They are written in universal time: date, `T`, time of day with as many decimal
places as it needs, `Z`. A year outside the range from 0 to 9999 has a sign and six digits. -/
namespace Guillotine

/-- A point in time, as nanoseconds since the start of 1970 in universal time. -/
structure Timestamp where
  nanoseconds : Int
deriving DecidableEq, Repr

namespace Timestamp

def nanosPerSecond : Int := 1000000000

/-- The greatest difference in seconds between a time zone and universal time. -/
def greatestOffset : Int := 25 * 3600 + 59 * 60 + 59

/-- The first point in time: every time zone has a date in the years from -9999 on for it. -/
def first : Timestamp :=
  ⟨((⟨-9999, 1, 1⟩ : Date).toDays * 86400 + greatestOffset) * nanosPerSecond⟩

/-- The last point in time: every time zone has a date in the years up to 9999 for it. -/
def last : Timestamp :=
  ⟨((⟨10000, 1, 1⟩ : Date).toDays * 86400 - greatestOffset) * nanosPerSecond - 1⟩

/-- Whether a point in time is within the range. -/
def inRange (t : Timestamp) : Bool :=
  first.nanoseconds ≤ t.nanoseconds && t.nanoseconds ≤ last.nanoseconds

/-- The whole seconds since the start of 1970, cut off toward it. -/
def seconds (t : Timestamp) : Int := t.nanoseconds.tdiv nanosPerSecond

/-- A year as four digits, or as a sign and six digits. -/
def yearText (year : Int) : String :=
  if year < 0 then "-" ++ Fixed.padded 6 year.natAbs else Fixed.padded 4 year.natAbs

/-- Decimal places for some nanoseconds, none if there are none. -/
def fractionText (n : Nat) : String :=
  if n = 0 then ""
  else
    let digits := (Fixed.padded 9 n).toList
    String.ofList ('.' :: (digits.reverse.dropWhile (· == '0')).reverse)

def text (t : Timestamp) : String :=
  let seconds := t.nanoseconds / nanosPerSecond
  let d := Date.ofDays (seconds / 86400)
  let s := (seconds % 86400).toNat
  String.join [yearText d.year, "-", Fixed.padded 2 d.month, "-", Fixed.padded 2 d.day, "T",
    Fixed.padded 2 (s / 3600), ":", Fixed.padded 2 (s / 60 % 60), ":", Fixed.padded 2 (s % 60),
    fractionText (t.nanoseconds % nanosPerSecond).toNat, "Z"]

end Timestamp

/-- A look at the clocks: the time of day, and the nanoseconds since some start, which no change of
the time of day disturbs. -/
structure Moment where
  wall : Timestamp
  uptime : Nat
deriving DecidableEq, Repr

/-- The span from one look at the clocks to a later one. -/
def Moment.since (later earlier : Moment) : Duration :=
  let n := later.uptime - earlier.uptime
  ⟨UInt64.ofNat (n / Duration.nanosPerSecond), UInt32.ofNat (n % Duration.nanosPerSecond)⟩

end Guillotine
