import Mathlib
import Guillotine.Decimal.Order

/-! Comparing numbers by value is a total preorder, also with infinite numbers and with what is no
number: each has a rank among triples of integers, and numbers compare as their ranks do. -/
namespace Guillotine

open Float.Model

/-! ### Ranks -/

/-- The place of an unpacked number: what kind it is, then its exponent, then its mantissa. -/
def valueRank : UnpackedFloat → Int × Int × Int
  | .infinity .negative => (-2, 0, 0)
  | .finite .negative m e _ => (-1, -e, -m)
  | .zero _ => (0, 0, 0)
  | .finite .positive m e _ => (1, e, m)
  | .infinity .positive => (2, 0, 0)
  | .notANumber => (3, 0, 0)

/-- Triples of integers in lexicographic order. -/
def compareRanks : Int × Int × Int → Int × Int × Int → Ordering :=
  compareLex (compareOn Prod.fst) (compareLex (compareOn (·.2.1)) (compareOn (·.2.2)))

instance : Std.TransCmp compareRanks :=
  inferInstanceAs (Std.TransCmp (compareLex _ _))

theorem compareRanks_same (k e₁ m₁ e₂ m₂ : Int) :
    compareRanks (k, e₁, m₁) (k, e₂, m₂) = (compare e₁ e₂).then (compare m₁ m₂) := by
  simp [compareRanks, compareLex, compareOn]

theorem compareRanks_swap (r s : Int × Int × Int) :
    compareRanks s r = (compareRanks r s).swap :=
  Std.OrientedCmp.eq_swap

theorem compare_neg (a b : Int) : compare (-a) (-b) = (compare a b).swap := by
  rcases lt_trichotomy a b with h | rfl | h
  · rw [compare_lt_iff_lt.2 h, compare_gt_iff_gt.2 (by omega)]
    rfl
  · simp
  · rw [compare_gt_iff_gt.2 h, compare_lt_iff_lt.2 (by omega)]
    rfl

theorem compare_natCast (m n : Nat) : compare (m : Int) n = compare m n := by
  rcases lt_trichotomy m n with h | rfl | h
  · rw [compare_lt_iff_lt.2 h, compare_lt_iff_lt.2 (by omega)]
  · simp
  · rw [compare_gt_iff_gt.2 h, compare_gt_iff_gt.2 (by omega)]

/-- Unpacked numbers compare as their ranks do. -/
theorem compare_eq_compareRanks {u v : UnpackedFloat} (hu : u ≠ .notANumber)
    (hv : v ≠ .notANumber) :
    u.compare v = some (compareRanks (valueRank u) (valueRank v)) := by
  cases u with
  | notANumber => exact absurd rfl hu
  | infinity s =>
    cases v with
    | notANumber => exact absurd rfl hv
    | infinity t => cases s <;> cases t <;> rfl
    | zero t => cases s <;> rfl
    | finite t m e hm => cases s <;> cases t <;> rfl
  | zero s =>
    cases v with
    | notANumber => exact absurd rfl hv
    | infinity t => cases t <;> rfl
    | zero t => rfl
    | finite t m e hm => cases t <;> rfl
  | finite s m e hm =>
    cases v with
    | notANumber => exact absurd rfl hv
    | infinity t => cases s <;> cases t <;> rfl
    | zero t => cases s <;> rfl
    | finite t n f hn =>
      cases s <;> cases t
      · simp only [valueRank, compareRanks_same, compare_neg, compare_natCast]
        show some ((compare e f).then (compare m n)).swap = _
        rw [Ordering.swap_then]
      · rfl
      · rfl
      · simp only [valueRank, compareRanks_same, compare_natCast]
        rfl

theorem compareRanks_notANumber {u : UnpackedFloat} (hu : u ≠ .notANumber) :
    compareRanks (valueRank u) (valueRank .notANumber) = .lt := by
  cases u with
  | notANumber => exact absurd rfl hu
  | zero s => rfl
  | infinity s => cases s <;> rfl
  | finite s m e hm => cases s <;> rfl

/-! ### Numbers -/

theorem lt_iff_compare {a b : Float} :
    a < b ↔ a.toModel.unpack.compare b.toModel.unpack = some .lt := by
  show decide (a.toModel < b.toModel) = true ↔ _
  rw [decide_eq_true_iff]
  show (a.toModel.unpack.compare b.toModel.unpack == some .lt) = true ↔ _
  rw [beq_iff_eq]

theorem isNaN_iff {a : Float} : a.isNaN = true ↔ a.toModel.unpack = .notANumber :=
  UnpackedFloat.isNaN_iff

theorem not_lt_of_left {a b : Float} (ha : a.toModel.unpack = .notANumber) : ¬ a < b := by
  simp [lt_iff_compare, ha, UnpackedFloat.compare]

theorem not_lt_of_right {a b : Float} (hb : b.toModel.unpack = .notANumber) : ¬ a < b := by
  rw [lt_iff_compare, hb]
  cases a.toModel.unpack <;> simp [UnpackedFloat.compare]

theorem lt_iff_compareRanks {a b : Float} (ha : a.toModel.unpack ≠ .notANumber)
    (hb : b.toModel.unpack ≠ .notANumber) :
    a < b ↔ compareRanks (valueRank a.toModel.unpack) (valueRank b.toModel.unpack) = .lt := by
  rw [lt_iff_compare, compare_eq_compareRanks ha hb, Option.some.injEq]

/-- Numbers compare by value as their ranks do. -/
theorem compareValues_eq (a b : Float) : compareValues a b =
    compareRanks (valueRank a.toModel.unpack) (valueRank b.toModel.unpack) := by
  unfold compareValues
  by_cases ha : a.toModel.unpack = .notANumber
  · rw [if_neg (not_lt_of_left ha), if_neg (not_lt_of_right ha), if_pos (isNaN_iff.2 ha), ha]
    by_cases hb : b.toModel.unpack = .notANumber
    · rw [if_pos (isNaN_iff.2 hb), hb]
      rfl
    · rw [if_neg (isNaN_iff.not.2 hb), compareRanks_swap, compareRanks_notANumber hb]
      rfl
  · by_cases hb : b.toModel.unpack = .notANumber
    · rw [if_neg (not_lt_of_right hb), if_neg (not_lt_of_left hb), if_neg (isNaN_iff.not.2 ha),
        if_pos (isNaN_iff.2 hb), hb, compareRanks_notANumber ha]
    · simp only [lt_iff_compareRanks ha hb, lt_iff_compareRanks hb ha, isNaN_iff, ha, hb, if_false]
      rw [compareRanks_swap (valueRank a.toModel.unpack)]
      cases compareRanks (valueRank a.toModel.unpack) (valueRank b.toModel.unpack) <;> rfl

instance : Std.TransCmp compareValues where
  eq_swap := by
    intro a b
    rw [compareValues_eq, compareValues_eq]
    exact Std.OrientedCmp.eq_swap
  isLE_trans := by
    intro a b c
    rw [compareValues_eq, compareValues_eq, compareValues_eq]
    exact Std.TransCmp.isLE_trans

/-! ### Numbers of one value -/

theorem eq_of_compareRanks {r s : Int × Int × Int} (h : compareRanks r s = .eq) : r = s := by
  simp only [compareRanks, compareLex, compareOn, Ordering.then_eq_eq,
    Std.compare_eq_iff_eq] at h
  exact Prod.ext h.1 (Prod.ext h.2.1 h.2.2)

theorem isFinite_eq_valueRank (a : Float) : a.isFinite =
    decide (-2 < (valueRank a.toModel.unpack).1 ∧ (valueRank a.toModel.unpack).1 < 2) := by
  show a.toModel.unpack.isFinite = _
  cases a.toModel.unpack with
  | notANumber => rfl
  | zero s => rfl
  | infinity s => cases s <;> rfl
  | finite s m e hm => cases s <;> rfl

/-- Numbers of one value are finite or not at the same time. -/
theorem isFinite_congr {a b : Float} (h : compareValues a b = .eq) : a.isFinite = b.isFinite := by
  rw [compareValues_eq] at h
  rw [isFinite_eq_valueRank, isFinite_eq_valueRank, eq_of_compareRanks h]

theorem lt_iff_compareValues (a : Float) {b : Float} (hb : b.isNaN = false) :
    a < b ↔ compareValues a b = .lt := by
  unfold compareValues
  split_ifs <;> simp_all

/-- Without what is no number, numbers compare by value as their unpacked forms do. -/
theorem compare_eq_compareValues {a b : Float} (ha : a.isNaN = false) (hb : b.isNaN = false) :
    a.toModel.unpack.compare b.toModel.unpack = some (compareValues a b) := by
  have number {c : Float} (hc : c.isNaN = false) : c.toModel.unpack ≠ .notANumber :=
    fun h => absurd (isNaN_iff.2 h) (hc ▸ Bool.false_ne_true)
  rw [compareValues_eq, compare_eq_compareRanks (number ha) (number hb)]

theorem le_iff_compareValues {a b : Float} (ha : a.isNaN = false) (hb : b.isNaN = false) :
    a ≤ b ↔ (compareValues a b).isLE := by
  show decide (a.toModel ≤ b.toModel) = true ↔ _
  rw [decide_eq_true_iff]
  show a.toModel.unpack.le b.toModel.unpack = true ↔ _
  rw [UnpackedFloat.le, compare_eq_compareValues ha hb]
  cases compareValues a b <;> decide

theorem beq_iff_compareValues {a b : Float} (ha : a.isNaN = false) (hb : b.isNaN = false) :
    a == b ↔ compareValues a b = .eq := by
  show a.toModel.unpack.beq b.toModel.unpack = true ↔ _
  rw [UnpackedFloat.beq, compare_eq_compareValues ha hb]
  cases compareValues a b <;> decide

theorem le_iff_not_lt {a b : Float} (ha : a.isNaN = false) (hb : b.isNaN = false) :
    a ≤ b ↔ ¬ b < a := by
  rw [le_iff_compareValues ha hb, lt_iff_compareValues b ha,
    (Std.OrientedCmp.eq_swap : compareValues b a = (compareValues a b).swap)]
  cases compareValues a b <;> decide

/-- Numbers of one value are on the same side of any number. -/
theorem lt_congr {a b c : Float} (hc : c.isNaN = false) (h : compareValues a b = .eq) :
    a < c ↔ b < c := by
  rw [lt_iff_compareValues a hc, lt_iff_compareValues b hc, Std.TransCmp.congr_left h]

end Guillotine
