import Mathlib
import Guillotine.Decimal.Binary64

/-! How a quotient is rounded to a binary number of 64 bits. Shifting a mantissa together with its
residual bits divides the quotient that they stand for, so the rounding is that of one quotient.
Every value in the interval of a binary number is rounded to that number: either it is rounded with
the exponent of the number, or it lies below a power of two and is carried up to it. -/
namespace Guillotine

open Float.Model Float.Model.UnpackedFloat

variable {a b n k m : Nat} {e E : Int} {v : ℚ}

/-! ### Quotients -/

/-- A quotient as a mantissa with residual bits. -/
def quotient (a b : Nat) : ExtendedMantissa :=
  .ofMantissaAndAccuracy (a / b) (accuracyOfFraction (a % b) b)

theorem quotient_eq (hb : 0 < b) : quotient a b =
    ⟨a / b, decide (b ≤ 2 * (a % b)), decide (2 * (a % b) ≠ 0 ∧ 2 * (a % b) ≠ b)⟩ := by
  unfold quotient accuracyOfFraction
  by_cases hr : a % b = 0
  · simp [hr, ExtendedMantissa.ofMantissaAndAccuracy, hb.ne']
  · rw [if_neg hr]
    rcases hc : compare (2 * (a % b)) b with _ | _ | _
    · have := Nat.compare_eq_lt.1 hc
      simp only [ExtendedMantissa.ofMantissaAndAccuracy, ExtendedMantissa.mk.injEq, true_and]
      constructor <;> simp <;> omega
    · have := Nat.compare_eq_eq.1 hc
      simp only [ExtendedMantissa.ofMantissaAndAccuracy, ExtendedMantissa.mk.injEq, true_and]
      constructor <;> simp <;> omega
    · have := Nat.compare_eq_gt.1 hc
      simp only [ExtendedMantissa.ofMantissaAndAccuracy, ExtendedMantissa.mk.injEq, true_and]
      constructor <;> simp <;> omega

/-- Shifting by one place halves the quotient. -/
theorem shiftRightOne_quotient (hb : 0 < b) :
    (quotient a b).shiftRightOne = quotient a (b * 2) := by
  have hmod : a % (b * 2) = a % b + b * (a / b % 2) := Nat.mod_mul
  have hr := Nat.mod_lt a hb
  rw [quotient_eq hb, quotient_eq (by omega), hmod]
  rcases Nat.mod_two_eq_zero_or_one (a / b) with hbit | hbit
  · simp only [ExtendedMantissa.shiftRightOne, ExtendedMantissa.mk.injEq,
      Nat.div_div_eq_div_mul, hbit, true_and]
    constructor
    · simp
      omega
    · rw [← Bool.decide_or, decide_eq_decide]
      omega
  · simp only [ExtendedMantissa.shiftRightOne, ExtendedMantissa.mk.injEq,
      Nat.div_div_eq_div_mul, hbit, true_and]
    constructor
    · simp
      omega
    · rw [← Bool.decide_or, decide_eq_decide]
      omega

theorem shift_quotient (hb : 0 < b) (k : Nat) : quotient a b >>> k = quotient a (b * 2 ^ k) := by
  induction k with
  | zero => simp [HShiftRight.hShiftRight, Nat.repeat]
  | succ k ih =>
    change (quotient a b >>> k).shiftRightOne = _
    rw [ih, shiftRightOne_quotient (by positivity), Nat.pow_succ, Nat.mul_assoc]

/-- A quotient is rounded as its remainder tells. -/
theorem roundedMantissa_quotient_eq (hb : 0 < b) : (quotient a b).roundedMantissa =
    if 2 * (a % b) < b then a / b
    else if 2 * (a % b) = b then a / b + a / b % 2 else a / b + 1 := by
  rw [quotient_eq hb]
  rcases Nat.lt_trichotomy (2 * (a % b)) b with hlt | heq | hgt
  · have hround : decide (b ≤ 2 * (a % b)) = false := by simpa using hlt
    rw [if_pos hlt, hround]
    cases decide (2 * (a % b) ≠ 0 ∧ 2 * (a % b) ≠ b) <;> rfl
  · have hne : ¬ 2 * (a % b) < b := by omega
    rw [if_neg hne, if_pos heq, heq]
    simp [ExtendedMantissa.roundedMantissa, ExtendedMantissa.accuracy,
      Accuracy.roundToNearestEven]
  · have hround : decide (b ≤ 2 * (a % b)) = true := by simpa using hgt.le
    have hsticky : decide (2 * (a % b) ≠ 0 ∧ 2 * (a % b) ≠ b) = true := by
      rw [decide_eq_true_eq]
      omega
    rw [if_neg (by omega), if_neg (by omega), hround, hsticky]
    rfl

/-- A quotient is rounded to the nearest integer, halfway to the even one. -/
theorem roundedMantissa_quotient (hb : 0 < b) (hlow : 2 * n * b ≤ 2 * a + b)
    (hhigh : 2 * a ≤ 2 * n * b + b)
    (htie : n % 2 = 1 → 2 * n * b < 2 * a + b ∧ 2 * a < 2 * n * b + b) :
    (quotient a b).roundedMantissa = n := by
  have hdiv := Nat.div_add_mod a b
  have hr := Nat.mod_lt a hb
  have hcases : n = a / b ∨ n = a / b + 1 := by
    have h1 : a / b < n + 1 := by
      rw [Nat.div_lt_iff_lt_mul hb]
      nlinarith
    have h2 : n < a / b + 2 := by
      by_contra h
      have : b * (a / b + 2) ≤ b * n := Nat.mul_le_mul_left b (by omega)
      nlinarith
    omega
  rw [roundedMantissa_quotient_eq hb]
  have hn : 2 * n * b = 2 * (b * n) := by ring
  rw [hn] at hlow hhigh htie
  generalize a % b = r at *
  rcases hcases with rfl | rfl
  · -- The quotient lies above `n`, by half at most.
    generalize b * (a / b) = c at *
    split
    · rfl
    · rw [if_pos (by omega)]
      omega
  · -- The quotient lies below `n`, by half at most.
    rw [Nat.mul_add, Nat.mul_one] at hlow hhigh htie
    generalize b * (a / b) = c at *
    rw [if_neg (by omega)]
    split <;> omega

/-! ### Binary numbers -/

namespace Binary64

/-- Whether `m * 2 ^ e` is written as a positive binary number is: with a full mantissa, or with
the least exponent. -/
structure Canonical (m : Nat) (e : Int) : Prop where
  pos : 0 < m
  lt : m < 2 ^ 53
  least : -1074 ≤ e
  full : 2 ^ 52 ≤ m ∨ e = -1074

/-- How many quarters of a step lie between a binary number and the lower end of its interval. -/
def quarters (m : Nat) (e : Int) : Nat := if m = leadingBit ∧ -1074 < e then 1 else 2

theorem quarters_le (m : Nat) (e : Int) : quarters m e ≤ 2 := by
  unfold quarters
  split <;> omega

/-- Whether a value lies in the interval of `m * 2 ^ e`. The ends belong to it if `m` is even. -/
structure Holds (m : Nat) (e : Int) (v : ℚ) : Prop where
  low : (4 * m - quarters m e) * 2 ^ (e - 2) ≤ v
  high : v ≤ (4 * m + 2) * 2 ^ (e - 2)
  inner : m % 2 = 1 → (4 * m - quarters m e) * 2 ^ (e - 2) < v ∧ v < (4 * m + 2) * 2 ^ (e - 2)

theorem targetExponent_eq (t : Int) :
    Format.binary64.targetExponent t = max (t - 53) (-1074) := rfl

theorem two_zpow_sub_two (e : Int) : (2 : ℚ) ^ (e - 2) = 2 ^ e / 4 := by
  rw [zpow_sub₀ (by norm_num)]
  norm_num

theorem two_zpow_sub_one (e : Int) : (2 : ℚ) ^ (e - 1) = 2 ^ e / 2 := by
  rw [zpow_sub₀ (by norm_num), zpow_one]

theorem two_zpow_add (c e : Int) : (2 : ℚ) ^ (c + e) = 2 ^ c * 2 ^ e :=
  zpow_add₀ (by norm_num) c e

/-! ### Where a value is rounded -/

/-- A value as a quotient at some exponent. -/
structure Quotient (a b : Nat) (E : Int) (v : ℚ) : Prop where
  pos : 0 < b
  eq : v = a / b * 2 ^ E

namespace Quotient

theorem lt_two_zpow (h : Quotient a b E v) : v < 2 ^ totalExponent (a / b) E := by
  have hb : (0 : ℚ) < b := by exact_mod_cast h.pos
  have hdiv : (a : ℚ) / b < (a / b : ℕ) + 1 := by
    rw [div_lt_iff₀ hb]
    have := Nat.lt_mul_div_succ a h.pos
    rw [Nat.mul_comm] at this
    exact_mod_cast this
  have hlog : ((a / b : ℕ) : ℚ) + 1 ≤ 2 ^ ((a / b).log2 + 1) := by
    exact_mod_cast Nat.lt_log2_self
  have hE : (0 : ℚ) < 2 ^ E := by positivity
  have hsplit : (2 : ℚ) ^ totalExponent (a / b) E = 2 ^ ((a / b).log2 + 1) * 2 ^ E := by
    rw [totalExponent, zpow_add₀ (by norm_num)]
    norm_cast
  rw [h.eq, hsplit]
  exact mul_lt_mul_of_pos_right (hdiv.trans_le hlog) hE

theorem two_zpow_le (h : Quotient a b E v) (ha : a / b ≠ 0) :
    2 ^ (totalExponent (a / b) E - 1) ≤ v := by
  have hE : (0 : ℚ) < 2 ^ E := by positivity
  have hlog : (2 : ℚ) ^ (a / b).log2 ≤ (a / b : ℕ) := by
    exact_mod_cast Nat.log2_self_le ha
  have hsplit : (2 : ℚ) ^ (totalExponent (a / b) E - 1) = 2 ^ (a / b).log2 * 2 ^ E := by
    have : totalExponent (a / b) E - 1 = ((a / b).log2 : Int) + E := by
      rw [totalExponent]
      ring
    rw [this, zpow_add₀ (by norm_num)]
    norm_cast
  rw [h.eq, hsplit]
  exact mul_le_mul_of_nonneg_right (hlog.trans Nat.cast_div_le) hE.le

/-- After a shift, a value near an integer number of steps is rounded to it. -/
theorem roundedMantissa (h : Quotient a b E v) {t : Int} (ht : E + k = t)
    (hlow : (2 * n - 1) * 2 ^ t ≤ 2 * v) (hhigh : 2 * v ≤ (2 * n + 1) * 2 ^ t)
    (htie : n % 2 = 1 → (2 * n - 1) * 2 ^ t < 2 * v ∧ 2 * v < (2 * n + 1) * 2 ^ t) :
    (quotient a (b * 2 ^ k)).roundedMantissa = n := by
  have hb : (0 : ℚ) < b := by exact_mod_cast h.pos
  have hE : (0 : ℚ) < 2 ^ E := by positivity
  have hpow : (2 : ℚ) ^ t = 2 ^ E * 2 ^ k := by
    rw [← ht, zpow_add₀ (by norm_num), zpow_natCast]
  -- Everything is a multiple of the same positive number.
  have hscale : ∀ c : ℚ, c * 2 ^ t = c * (b * 2 ^ k) * (2 ^ E / b) := by
    intro c
    rw [hpow]
    field_simp
  have hvalue : 2 * v = 2 * a * (2 ^ E / b) := by
    rw [h.eq]
    ring
  have hunit : (0 : ℚ) < 2 ^ E / b := by positivity
  simp only [hscale, hvalue, mul_le_mul_iff_left₀ hunit, mul_lt_mul_iff_left₀ hunit] at *
  refine roundedMantissa_quotient (Nat.mul_pos h.pos (by positivity)) ?_ ?_ ?_
  · have : 2 * (n : ℚ) * (b * 2 ^ k) ≤ 2 * a + b * 2 ^ k := by linarith
    exact_mod_cast this
  · have : 2 * (a : ℚ) ≤ 2 * n * (b * 2 ^ k) + b * 2 ^ k := by linarith
    exact_mod_cast this
  · intro hn
    obtain ⟨hl, hh⟩ := htie hn
    have hl' : 2 * (n : ℚ) * (b * 2 ^ k) < 2 * a + b * 2 ^ k := by linarith
    have hh' : 2 * (a : ℚ) < 2 * n * (b * 2 ^ k) + b * 2 ^ k := by linarith
    exact ⟨by exact_mod_cast hl', by exact_mod_cast hh'⟩

/-- A quotient below one is only met where exponents are least. -/
theorem lt_of_eq_zero (h : Quotient a b E v) (ha : a / b = 0) {t : Int}
    (ht : t = Format.binary64.targetExponent (totalExponent (a / b) E)) (hE : E ≤ t) :
    t = -1074 ∧ v < 2 ^ (-1073 : Int) := by
  have htotal : totalExponent (a / b) E = 1 + E := by simp [totalExponent, ha]
  have hv := h.lt_two_zpow
  rw [targetExponent_eq, htotal] at ht
  rw [htotal] at hv
  have hle : (2 : ℚ) ^ (1 + E) ≤ 2 ^ (-1073 : Int) :=
    zpow_le_zpow_right₀ (by norm_num) (by omega)
  exact ⟨by omega, hv.trans_le hle⟩

theorem ne_zero (h : Quotient a b E v) {t : Int}
    (ht : t = Format.binary64.targetExponent (totalExponent (a / b) E)) (hE : E ≤ t) {c : Int}
    (hc : -1073 ≤ c) (hv : 2 ^ c ≤ v) : a / b ≠ 0 := by
  intro ha
  have hge : (2 : ℚ) ^ (-1073 : Int) ≤ 2 ^ c := zpow_le_zpow_right₀ (by norm_num) hc
  exact absurd ((hge.trans hv).trans_lt (h.lt_of_eq_zero ha ht hE).2) (lt_irrefl _)

/-- Where the exponent of the result lies depends on the magnitude of the value only. -/
theorem totalExponent_eq (h : Quotient a b E v) (ha : a / b ≠ 0) {t : Int}
    (hlow : 2 ^ (t - 1) ≤ v) (hhigh : v < 2 ^ t) : totalExponent (a / b) E = t := by
  have h1 := (hlow.trans_lt h.lt_two_zpow)
  have h2 := ((h.two_zpow_le ha).trans_lt hhigh)
  rw [zpow_lt_zpow_iff_right₀ (by norm_num)] at h1 h2
  omega

end Quotient

/-! ### Values in the interval of a number -/

namespace Holds

theorem lt_two_zpow_add (hc : Canonical m e) (hv : Holds m e v) : v < 2 ^ (53 + e) := by
  have hm : (m : ℚ) + 1 ≤ 2 ^ 53 := by exact_mod_cast hc.lt
  have hpos : (0 : ℚ) < 2 ^ e := by positivity
  have hhigh := hv.high
  rw [two_zpow_sub_two] at hhigh
  rw [two_zpow_add]
  calc v ≤ (4 * m + 2) * (2 ^ e / 4) := hhigh
    _ < 2 ^ 53 * 2 ^ e := by nlinarith

/-- Only the interval of a power of two reaches below it, by one quarter of a step. -/
theorem of_lt (hc : Canonical m e) (hv : Holds m e v) (he : e ≠ -1074) (hlt : v < 2 ^ (52 + e)) :
    m = 2 ^ 52 ∧ (2 ^ 54 - 1) * 2 ^ (e - 2) ≤ v := by
  have hpos : (0 : ℚ) < 2 ^ e := by positivity
  have hquarters : (quarters m e : ℚ) ≤ 2 := by exact_mod_cast quarters_le m e
  have hlow := hv.low
  rw [two_zpow_sub_two] at hlow ⊢
  rw [two_zpow_add] at hlt
  have hm : m = 2 ^ 52 := by
    have hle : (4 * m - 2 : ℚ) < 4 * 2 ^ 52 := by
      by_contra hge
      nlinarith
    have hlt : 4 * m < 4 * 2 ^ 52 + 2 := by
      have : (4 * m : ℚ) < 4 * 2 ^ 52 + 2 := by linarith
      exact_mod_cast this
    have hfull := hc.full.resolve_right he
    omega
  have hquarter : (quarters m e : ℚ) = 1 := by
    have hleast := hc.least
    have : quarters m e = 1 := if_pos ⟨hm, by omega⟩
    exact_mod_cast this
  rw [hquarter, hm] at hlow
  push_cast at hlow
  exact ⟨hm, by linarith⟩

end Holds

/-- With the exponent of the number, a value in its interval is rounded to its mantissa. -/
theorem Quotient.roundedMantissa_same (h : Quotient a b E v) (hv : Holds m e v) (hk : E + k = e) :
    (quotient a (b * 2 ^ k)).roundedMantissa = m := by
  have hpos : (0 : ℚ) < 2 ^ e := by positivity
  have hquarters : (quarters m e : ℚ) ≤ 2 := by exact_mod_cast quarters_le m e
  obtain ⟨hlow, hhigh, hinner⟩ := hv
  rw [two_zpow_sub_two] at hlow hhigh hinner
  refine h.roundedMantissa hk ?_ ?_ ?_
  · nlinarith
  · linarith
  · intro hodd
    obtain ⟨hl, hh⟩ := hinner hodd
    exact ⟨by nlinarith, by linarith⟩

/-- With the next smaller exponent, a value just below a power of two is rounded to it. -/
theorem Quotient.roundedMantissa_below (h : Quotient a b E v) (hk : E + k = e - 1)
    (hlow : (2 ^ 54 - 1) * 2 ^ (e - 2) ≤ v) (hhigh : v < 2 ^ (52 + e)) :
    (quotient a (b * 2 ^ k)).roundedMantissa = 2 ^ 53 := by
  have hpos : (0 : ℚ) < 2 ^ e := by positivity
  rw [two_zpow_sub_two] at hlow
  rw [two_zpow_add] at hhigh
  norm_cast at hhigh
  push_cast at hhigh
  refine h.roundedMantissa hk ?_ ?_ ?_
  · rw [two_zpow_sub_one]
    push_cast
    linarith
  · rw [two_zpow_sub_one]
    push_cast
    linarith
  · intro hodd
    norm_num at hodd

/-- A value in the interval of a number is rounded to that number, or to the power of two next to
it with a smaller exponent. -/
theorem roundedMantissa_of_holds (hc : Canonical m e) (hv : Holds m e v) (h : Quotient a b E v)
    {t : Int} (ht : t = Format.binary64.targetExponent (totalExponent (a / b) E)) (hE : E ≤ t) :
    let r := (quotient a (b * 2 ^ (t - E).toNat)).roundedMantissa
    (t = e ∧ r = m) ∨ (t = e - 1 ∧ -1074 < e ∧ m = 2 ^ 52 ∧ r = 2 ^ 53) := by
  intro r
  have hk : E + ((t - E).toNat : Int) = t := by omega
  have hleast := hc.least
  have hsame : t = e → r = m := fun hte => h.roundedMantissa_same hv (hk.trans hte)
  by_cases hsmall : v < 2 ^ (52 + e)
  · by_cases he : e = -1074
    · have hte : t = e := by
        by_cases ha : a / b = 0
        · exact (h.lt_of_eq_zero ha ht hE).1.trans he.symm
        · have hlt := (h.two_zpow_le ha).trans_lt hsmall
          rw [zpow_lt_zpow_iff_right₀ (by norm_num)] at hlt
          rw [targetExponent_eq] at ht
          omega
      exact .inl ⟨hte, hsame hte⟩
    · obtain ⟨hm, hlow⟩ := hv.of_lt hc he hsmall
      have hbig : (2 : ℚ) ^ (52 + e - 1) ≤ v := by
        have hpos : (0 : ℚ) < 2 ^ e := by positivity
        rw [two_zpow_sub_two] at hlow
        rw [two_zpow_sub_one, two_zpow_add]
        norm_cast
        push_cast
        linarith
      have htotal := h.totalExponent_eq (h.ne_zero ht hE (by omega) hbig) hbig hsmall
      have hte : t = e - 1 := by
        rw [targetExponent_eq] at ht
        omega
      exact .inr ⟨hte, by omega, hm, h.roundedMantissa_below (hk.trans hte) hlow hsmall⟩
  · rw [not_lt] at hsmall
    have htotal := h.totalExponent_eq (h.ne_zero ht hE (by omega) hsmall)
      (by rwa [show 53 + e - 1 = 52 + e by ring]) (hv.lt_two_zpow_add hc)
    have hte : t = e := by
      rw [targetExponent_eq] at ht
      omega
    exact .inl ⟨hte, hsame hte⟩

/-! ### The result of rounding -/

theorem shift_exact_of_lt {r : Nat} (hr : r < 2 ^ 53) (he : -1074 ≤ e) :
    shiftToTargetExponent Format.binary64 r e .exact = (⟨r, false, false⟩, e) := by
  have hlog : r.log2 ≤ 52 := by
    by_cases h : r = 0
    · simp [h]
    · exact Nat.le_of_lt_succ ((Nat.log2_lt h).2 hr)
  have hshift : (Format.binary64.targetExponent (totalExponent r e) - e).toNat = 0 := by
    rw [targetExponent_eq, totalExponent]
    omega
  simp only [shiftToTargetExponent, shiftToExponent, hshift]
  exact Prod.ext rfl (add_zero e)

theorem shift_exact_carry (he : -1074 ≤ e) :
    shiftToTargetExponent Format.binary64 (2 ^ 53) e .exact = (⟨2 ^ 52, false, false⟩, e + 1) := by
  have hshift : (Format.binary64.targetExponent (totalExponent (2 ^ 53) e) - e).toNat = 1 := by
    rw [targetExponent_eq, totalExponent, Nat.log2_two_pow]
    omega
  simp only [shiftToTargetExponent, shiftToExponent, hshift]
  rfl

/-- Every value in the interval of a number is rounded to that number. -/
theorem roundWithAccuracy_of_holds (s : Sign) (hc : Canonical m e) (hv : Holds m e v)
    (h : Quotient a b E v)
    (hE : E ≤ Format.binary64.targetExponent (totalExponent (a / b) E)) :
    roundWithAccuracy Format.binary64 s (a / b) E (accuracyOfFraction (a % b) b) =
      .finite s m e hc.pos := by
  generalize ht : Format.binary64.targetExponent (totalExponent (a / b) E) = t at hE
  have hround := roundedMantissa_of_holds hc hv h ht.symm hE
  have hfirst : shiftToTargetExponent Format.binary64 (a / b) E (accuracyOfFraction (a % b) b) =
      (quotient a (b * 2 ^ (t - E).toNat), t) := by
    simp only [shiftToTargetExponent, shiftToExponent, ht]
    refine Prod.ext (shift_quotient h.pos _) ?_
    change E + ((t - E).toNat : Int) = t
    omega
  unfold roundWithAccuracy
  rw [hfirst]
  dsimp only at hround ⊢
  rcases hround with ⟨hte, hr⟩ | ⟨hte, he, hm, hr⟩
  · have hsecond := shift_exact_of_lt hc.lt hc.least
    rw [hr, hte, hsecond]
    exact dif_neg hc.pos.ne'
  · have hsecond := shift_exact_carry (e := t) (by omega)
    rw [hr, hsecond]
    subst hm hte
    simp

end Binary64

end Guillotine
