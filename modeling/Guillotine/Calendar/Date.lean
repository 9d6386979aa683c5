/-! Dates of the Gregorian calendar, extended to all years, and their numbers of days since the
first of January 1970. -/
namespace Guillotine

structure Date where
  year : Int
  month : Nat
  day : Nat
deriving DecidableEq, Repr

namespace Date

def isLeap (year : Int) : Bool :=
  year % 4 = 0 && (year % 100 ≠ 0 || year % 400 = 0)

def daysInMonth (year : Int) (month : Nat) : Nat :=
  if month = 2 then if isLeap year then 29 else 28
  else if month = 4 ∨ month = 6 ∨ month = 9 ∨ month = 11 then 30
  else 31

/-- Whether a date exists. -/
def isValid (d : Date) : Bool :=
  1 ≤ d.month && d.month ≤ 12 && 1 ≤ d.day && d.day ≤ daysInMonth d.year d.month

/-- The days from the start of year one to the start of `year`. -/
def daysBeforeYear (year : Int) : Int :=
  let y := year - 1
  365 * y + y / 4 - y / 100 + y / 400

/-- The days of `year` before its month `month`. -/
def daysBeforeMonth (year : Int) (month : Nat) : Nat :=
  (List.range (month - 1)).foldl (fun n m => n + daysInMonth year (m + 1)) 0

/-- The days from the first of January 1970 to a date. -/
def toDays (d : Date) : Int :=
  daysBeforeYear d.year + daysBeforeMonth d.year d.month + d.day - 1 - daysBeforeYear 1970

/-- The year that holds the day with number `n`, counted from the start of year one. The mean
length of a year is off by at most one year. -/
def yearOfDay (n : Int) : Int :=
  let guess := 400 * n / 146097 + 1
  if n < daysBeforeYear guess then guess - 1
  else if daysBeforeYear (guess + 1) ≤ n then guess + 1
  else guess

/-- The month and day with number `n` among the days from month `month` of a year on, of which
there are at most `months` months. -/
def monthOfDay (year : Int) : (months month n : Nat) → Nat × Nat
  | 0, month, n => (month, n + 1)
  | months + 1, month, n =>
    if n < daysInMonth year month then (month, n + 1)
    else monthOfDay year months (month + 1) (n - daysInMonth year month)

/-- The date that is some days after the first of January 1970. -/
def ofDays (days : Int) : Date :=
  let n := days + daysBeforeYear 1970
  let year := yearOfDay n
  let (month, day) := monthOfDay year 11 1 (n - daysBeforeYear year).toNat
  ⟨year, month, day⟩

end Date

end Guillotine
