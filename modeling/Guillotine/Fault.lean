/-! Faults and checked arithmetic. A length has 32 bits and an area 64. Where a sum or a
difference leaves that range the computation stops with a fault, which is a value like any other:
a caller may go on after it, with whatever state it had reached. -/
namespace Guillotine

/-- Why a computation stopped without an answer. -/
inductive Fault where
  | sumOverflow
  | differenceUnderflow
  /-- A handle whose free rectangle is gone. -/
  | staleHandle
  /-- A piece that does not fit the free rectangle it is to be cut from. -/
  | tooLarge
  | layoutRejected
  | itemsUnaccounted
  | unknownCode
  /-- A time to live that ends beyond the last point in time. -/
  | deadlineOverflow
deriving DecidableEq, Repr

/-- The text that reports a fault. -/
def Fault.message : Fault → String
  | .sumOverflow => "attempt to add with overflow"
  | .differenceUnderflow => "attempt to subtract with overflow"
  | .staleHandle => "free rectangle key is not valid anymore"
  | .tooLarge => "assertion failed: rect.fits(placed_w, placed_h)"
  | .layoutRejected => "a finished sheet does not pass the audit"
  | .itemsUnaccounted => "items are neither placed nor unplaced"
  | .unknownCode => "a code has no material"
  | .deadlineOverflow => "overflow when adding duration to instant"

/-- A result, or the fault that prevented it. -/
abbrev Checked (α : Type) := Except Fault α

/-- A coordinate or an extent, in whole millimetres. -/
abbrev Length := UInt32

/-- An area, in square millimetres. -/
abbrev Area := UInt64

/-! ### Lengths -/

namespace Length

/-- The sum of two lengths, if it is a length: a sum that wraps around is less than its parts. -/
@[inline] def add (a b : Length) : Checked Length :=
  if a ≤ a + b then .ok (a + b) else .error .sumOverflow

/-- The sum of two lengths, cut off at the longest length. -/
@[inline] def addCapped (a b : Length) : Length :=
  if a ≤ a + b then a + b else 4294967295

/-- The difference of two lengths, zero where it would be negative. -/
def subFloored (a b : Length) : Length :=
  if b ≤ a then a - b else 0

/-- Two lengths span less than the largest area. -/
def times (a b : Length) : Area :=
  a.toUInt64 * b.toUInt64

/-- A sum of lengths does not wrap around just if it has 32 bits. -/
theorem le_add_iff (a b : Length) : a ≤ a + b ↔ a.toNat + b.toNat < 4294967296 := by
  have ha := a.toNat_lt
  have hb := b.toNat_lt
  rw [UInt32.le_iff_toNat_le, UInt32.toNat_add]
  omega

/-- Two lengths have a sum just if it is a length as a natural number. -/
theorem add_eq_ok_iff {a b c : Length} : add a b = .ok c ↔ a.toNat + b.toNat = c.toNat := by
  have hc := c.toNat_lt
  unfold add
  split
  next h =>
    rw [le_add_iff] at h
    rw [Except.ok.injEq, ← UInt32.toNat_inj, UInt32.toNat_add, Nat.mod_eq_of_lt h]
  next h =>
    rw [le_add_iff] at h
    simp only [reduceCtorEq, false_iff]
    omega

theorem toNat_addCapped (a b : Length) :
    (addCapped a b).toNat = min (a.toNat + b.toNat) 4294967295 := by
  unfold addCapped
  split
  next h =>
    rw [le_add_iff] at h
    rw [UInt32.toNat_add]
    omega
  next h =>
    rw [le_add_iff] at h
    have : (4294967295 : UInt32).toNat = 4294967295 := rfl
    omega

theorem toNat_subFloored (a b : Length) : (subFloored a b).toNat = a.toNat - b.toNat := by
  unfold subFloored
  split
  next h => exact UInt32.toNat_sub_of_le a b h
  next h =>
    have : ¬ b.toNat ≤ a.toNat := fun k => h (UInt32.le_iff_toNat_le.mpr k)
    have : (0 : UInt32).toNat = 0 := rfl
    omega

theorem toNat_times (a b : Length) : (times a b).toNat = a.toNat * b.toNat := by
  have ha := a.toNat_lt
  have hb := b.toNat_lt
  have : a.toNat * b.toNat ≤ 4294967295 * 4294967295 :=
    Nat.mul_le_mul (by omega) (by omega)
  simp only [times, UInt64.toNat_mul, UInt32.toNat_toUInt64]
  omega

end Length

/-! ### Areas -/

namespace Area

/-- The sum of two areas, if it is an area. -/
@[inline] def add (a b : Area) : Checked Area :=
  if a ≤ a + b then .ok (a + b) else .error .sumOverflow

/-- The difference of two areas, if it is not negative. -/
def sub (a b : Area) : Checked Area :=
  if b ≤ a then .ok (a - b) else .error .differenceUnderflow

/-- The sum of a list of areas, taken from the left. -/
def sum (areas : List Area) : Checked Area :=
  areas.foldlM add 0

/-- A sum of areas does not wrap around just if it has 64 bits. -/
theorem le_add_iff (a b : Area) : a ≤ a + b ↔ a.toNat + b.toNat < 18446744073709551616 := by
  have ha := a.toNat_lt
  have hb := b.toNat_lt
  rw [UInt64.le_iff_toNat_le, UInt64.toNat_add]
  omega

/-- Two areas have a sum just if it is an area as a natural number. -/
theorem add_eq_ok_iff {a b c : Area} : add a b = .ok c ↔ a.toNat + b.toNat = c.toNat := by
  have hc := c.toNat_lt
  unfold add
  split
  next h =>
    rw [le_add_iff] at h
    rw [Except.ok.injEq, ← UInt64.toNat_inj, UInt64.toNat_add, Nat.mod_eq_of_lt h]
  next h =>
    rw [le_add_iff] at h
    simp only [reduceCtorEq, false_iff]
    omega

end Area

end Guillotine
