import Mathlib
import Guillotine.Calendar.Date

/-! Dates and numbers of days. The year of a day begins no later than the day, and the next one
later; so do the months within the year. What is found that way exists and has the number of days
from which it was found. -/
namespace Guillotine

namespace Date

variable {year : Int} {month n : Nat}

/-! ### Years -/

/-- The days of a year. -/
def daysInYear (year : Int) : Nat := if isLeap year then 366 else 365

theorem isLeap_iff : isLeap year = true ↔ year % 4 = 0 ∧ (year % 100 ≠ 0 ∨ year % 400 = 0) := by
  simp [isLeap]

theorem daysBeforeYear_succ (year : Int) :
    daysBeforeYear (year + 1) = daysBeforeYear year + daysInYear year := by
  simp only [daysBeforeYear, daysInYear]
  split
  next h =>
    rw [isLeap_iff] at h
    omega
  next h =>
    rw [isLeap_iff] at h
    omega

theorem daysBeforeYear_mono {y z : Int} (h : y ≤ z) : daysBeforeYear y ≤ daysBeforeYear z := by
  simp only [daysBeforeYear]
  omega

/-- A day is in its year. -/
theorem yearOfDay_spec (day : Int) :
    daysBeforeYear (yearOfDay day) ≤ day ∧ day < daysBeforeYear (yearOfDay day + 1) := by
  have hlow : daysBeforeYear (400 * day / 146097) ≤ day := by
    simp only [daysBeforeYear]
    omega
  have hhigh : day < daysBeforeYear (400 * day / 146097 + 1 + 1 + 1) := by
    simp only [daysBeforeYear]
    omega
  unfold yearOfDay
  generalize 400 * day / 146097 = guess at hlow hhigh ⊢
  dsimp only
  split
  next h =>
    rw [Int.add_sub_cancel]
    exact ⟨hlow, h⟩
  next h =>
    split
    next hnext => exact ⟨hnext, hhigh⟩
    next hnext => exact ⟨Int.not_lt.1 h, Int.not_le.1 hnext⟩

/-! ### Months -/

theorem daysBeforeMonth_succ (year : Int) (h : 1 ≤ month) :
    daysBeforeMonth year (month + 1) = daysBeforeMonth year month + daysInMonth year month := by
  obtain ⟨k, rfl⟩ := Nat.exists_eq_add_of_le' h
  simp [daysBeforeMonth, List.range_succ]

theorem daysBeforeMonth_end (year : Int) : daysBeforeMonth year 13 = daysInYear year := by
  unfold daysInYear daysBeforeMonth
  cases h : isLeap year <;> simp [List.range_succ, daysInMonth, h]

/-- A day is in its month, if it is in any of the months that are left. -/
theorem monthOfDay_spec {months : Nat} (hmonth : 1 ≤ month)
    (h : daysBeforeMonth year month + n < daysBeforeMonth year (month + months + 1)) :
    month ≤ (monthOfDay year months month n).1 ∧
      (monthOfDay year months month n).1 ≤ month + months ∧
      1 ≤ (monthOfDay year months month n).2 ∧
      (monthOfDay year months month n).2 ≤
        daysInMonth year (monthOfDay year months month n).1 ∧
      daysBeforeMonth year (monthOfDay year months month n).1 +
        (monthOfDay year months month n).2 = daysBeforeMonth year month + n + 1 := by
  induction months generalizing month n with
  | zero =>
    rw [Nat.add_zero, daysBeforeMonth_succ year hmonth] at h
    unfold monthOfDay
    dsimp only
    omega
  | succ months ih =>
    unfold monthOfDay
    split
    · dsimp only
      omega
    next hn =>
      have hnext := daysBeforeMonth_succ year hmonth
      have hlater := @ih (month + 1) (n - daysInMonth year month) (by omega)
        (by rw [hnext, show month + 1 + months + 1 = month + (months + 1) + 1 by omega]; omega)
      rw [hnext] at hlater
      omega

/-! ### Days -/

/-- The day that was asked for is found again from its date, and is in the year of the date. -/
theorem ofDays_spec (days : Int) : (ofDays days).isValid = true ∧ (ofDays days).toDays = days ∧
    daysBeforeYear (ofDays days).year ≤ days + daysBeforeYear 1970 ∧
    days + daysBeforeYear 1970 < daysBeforeYear ((ofDays days).year + 1) := by
  obtain ⟨hlow, hhigh⟩ := yearOfDay_spec (days + daysBeforeYear 1970)
  unfold ofDays
  dsimp only
  generalize yearOfDay (days + daysBeforeYear 1970) = year at hlow hhigh ⊢
  have hlength := daysBeforeYear_succ year
  have hstart : daysBeforeMonth year 1 = 0 := rfl
  have hend : daysBeforeMonth year (1 + 11 + 1) = daysInYear year := daysBeforeMonth_end year
  have hmonth := @monthOfDay_spec year 1
    (days + daysBeforeYear 1970 - daysBeforeYear year).toNat 11 (by omega) (by omega)
  generalize monthOfDay year 11 1 _ = found at hmonth ⊢
  obtain ⟨month, day⟩ := found
  obtain ⟨hfirst, hlast, hday, hdays, hsum⟩ := hmonth
  refine ⟨?_, ?_, hlow, hhigh⟩
  · simp only [isValid, Bool.and_eq_true, decide_eq_true_eq]
    exact ⟨⟨⟨hfirst, hlast⟩, hday⟩, hdays⟩
  · simp only [toDays] at *
    omega

end Date

end Guillotine
