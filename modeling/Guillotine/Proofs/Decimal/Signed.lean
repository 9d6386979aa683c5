import Guillotine.Proofs.Decimal.Nearest
import Guillotine.Proofs.Decimal.Order

/-! The order by value and sign. On finite numbers other than negative zero it is the order by
value: the pattern of bits without the sign is the mantissa on top of the exponent, so it grows as
the magnitude does. Whole numbers that are exact are such numbers. -/
namespace Guillotine

open Float.Model Float.Model.UnpackedFloat

namespace Binary64

variable {x a b : Float} {m n : Nat} {e f : Int}

theorem compare_sub_one (i j : Int) : compare (i - 1) (j - 1) = compare i j := by
  rcases lt_trichotomy i j with h | rfl | h
  · rw [compare_lt_iff_lt.2 h, compare_lt_iff_lt.2 (by omega)]
  · simp
  · rw [compare_gt_iff_gt.2 h, compare_gt_iff_gt.2 (by omega)]

/-- A finite number other than negative zero. -/
structure Ordinary (x : Float) : Prop where
  finite : x.isFinite = true
  ne_negative_zero : x ≠ -0

/-- The pattern of bits of a positive number with some parts. -/
def pattern (m : Nat) (e : Int) : Int := (e + 1074) * 2 ^ 52 + m

theorem pattern_pos (h : Canonical m e) : 0 < pattern m e := by
  have hpos := h.pos
  have hleast := h.least
  unfold pattern
  omega

/-- Patterns compare as the exponents do, and where these are the same, as the mantissas do. -/
theorem compare_pattern (h : Canonical m e) (k : Canonical n f) :
    compare (pattern m e) (pattern n f) = (compare e f).then (compare (m : Int) n) := by
  have hlt := h.lt
  have hfull := h.full
  have hleast := h.least
  have klt := k.lt
  have kfull := k.full
  have kleast := k.least
  unfold pattern
  rcases lt_trichotomy e f with hef | rfl | hef
  · rw [compare_lt_iff_lt.2 hef, compare_lt_iff_lt.2 (by omega)]
    rfl
  · rw [compare_eq_iff_eq.2 (rfl : e = e), Ordering.eq_then]
    rcases lt_trichotomy (m : Int) n with hmn | hmn | hmn
    · rw [compare_lt_iff_lt.2 hmn, compare_lt_iff_lt.2 (by omega)]
    · rw [hmn]
      simp
    · rw [compare_gt_iff_gt.2 hmn, compare_gt_iff_gt.2 (by omega)]
  · rw [compare_gt_iff_gt.2 hef, compare_gt_iff_gt.2 (by omega)]
    rfl

/-- What an ordinary number is, and its places in the two orders. -/
inductive Ranks (x : Float) : Prop
  | zero (hvalue : valueRank x.toModel.unpack = (0, 0, 0)) (hsigned : signedRank x = 0)
  | positive {m : Nat} {e : Int} (hc : Canonical m e)
    (hvalue : valueRank x.toModel.unpack = (1, e, (m : Int))) (hsigned : signedRank x = pattern m e)
  | negative {m : Nat} {e : Int} (hc : Canonical m e)
    (hvalue : valueRank x.toModel.unpack = (-1, -e, -(m : Int)))
    (hsigned : signedRank x = -pattern m e - 1)

theorem Ordinary.ranks (h : Ordinary x) : Ranks x := by
  obtain ⟨negative, m, e, hx⟩ := (isFinite_iff x).1 h.finite
  rcases Nat.eq_zero_or_pos m with rfl | hm
  · have hzero := eq_zero_of_ofFloat hx
    cases negative with
    | true => exact absurd hzero h.ne_negative_zero
    | false =>
      obtain rfl : x = 0 := hzero
      exact .zero (by decide +kernel) (by decide +kernel)
  · obtain ⟨hc, -⟩ := canonical_of_ofFloat hm hx
    have hunpack := unpack_of_ofFloat hm hx
    have hbits : (bits x).toNat < 2 ^ 64 := (bits x).isLt
    obtain ⟨hf, hsign, hfields⟩ := fields_of_ofFloat hx
    rw [toNat_unpackExponent, toNat_unpackMantissa] at hfields
    rw [toNat_unpackExponent] at hf
    -- The fields of the pattern are those into which the number is taken apart.
    have hpattern : pattern m e = ((bits x).toNat % 2 ^ 63 : Nat) := by
      unfold pattern
      omega
    have hsigned : signedRank x = if (bits x).toNat < signBit then ((bits x).toNat : Int)
        else -((bits x).toNat - signBit : Nat) - 1 := rfl
    cases negative with
    | false =>
      have hlow : (bits x).toNat < signBit := by simpa using hsign
      refine .positive hc (by rw [hunpack]; rfl) ?_
      rw [hsigned, if_pos hlow, hpattern]
      simp only [signBit] at hlow
      omega
    | true =>
      have hhigh : signBit ≤ (bits x).toNat := by simpa using hsign
      refine .negative hc (by rw [hunpack]; rfl) ?_
      rw [hsigned, if_neg (Nat.not_lt.2 hhigh), hpattern]
      simp only [signBit] at *
      omega

/-- The two orders agree on ordinary numbers. -/
theorem compareSigned_eq (ha : Ordinary a) (hb : Ordinary b) :
    compareSigned a b = compareValues a b := by
  rw [compareValues_eq]
  unfold compareSigned
  cases ha.ranks with
  | zero hvalue hsigned =>
    rw [hvalue, hsigned]
    cases hb.ranks with
    | zero hvalue hsigned =>
      rw [hvalue, hsigned]
      rfl
    | positive hc hvalue hsigned =>
      have hpos := pattern_pos hc
      rw [hvalue, hsigned, compare_lt_iff_lt.2 hpos]
      rfl
    | negative hc hvalue hsigned =>
      have hpos := pattern_pos hc
      rw [hvalue, hsigned, compare_gt_iff_gt.2 (by omega)]
      rfl
  | positive hc hvalue hsigned =>
    have hpos := pattern_pos hc
    rw [hvalue, hsigned]
    cases hb.ranks with
    | zero hvalue hsigned =>
      rw [hvalue, hsigned, compare_gt_iff_gt.2 hpos]
      rfl
    | positive kc hvalue hsigned =>
      rw [hvalue, hsigned, compareRanks_same, compare_pattern hc kc]
    | negative kc hvalue hsigned =>
      have kpos := pattern_pos kc
      rw [hvalue, hsigned, compare_gt_iff_gt.2 (by omega)]
      rfl
  | negative hc hvalue hsigned =>
    have hpos := pattern_pos hc
    rw [hvalue, hsigned]
    cases hb.ranks with
    | zero hvalue hsigned =>
      rw [hvalue, hsigned, compare_lt_iff_lt.2 (by omega)]
      rfl
    | positive kc hvalue hsigned =>
      have kpos := pattern_pos kc
      rw [hvalue, hsigned, compare_lt_iff_lt.2 (by omega)]
      rfl
    | negative kc hvalue hsigned =>
      rw [hvalue, hsigned, compareRanks_same, compare_neg, compare_neg, ← Ordering.swap_then,
        ← compare_pattern hc kc, ← compare_neg, compare_sub_one]

/-! ### Whole numbers -/

/-- A positive number of few bits as a binary number. -/
theorem ofNat_eq_pack (hn : 0 < n) (hlt : n < 2 ^ 53) : ∃ m e, ∃ hc : Canonical m e,
    e ≤ 971 ∧ Float.ofNat n = Float.ofModel (Float.Model.pack (.finite .positive m e hc.pos)) := by
  obtain ⟨m, e, he, hc, hexact⟩ := exists_exact_ofNat hn hlt
  refine ⟨m, e, hc, by omega, ?_⟩
  have hvalue : ((n : ℚ) * 10 ^ (0 : Int)) = m * 2 ^ e := by
    rw [zpow_zero, mul_one, hexact.value]
  exact ofScientific_of_holds (g := 0) hc (by omega) (hvalue ▸ holds_self m e)

theorem ordinary_of_unpack {s : Sign} (hm : 0 < m) (h : x.toModel.unpack = .finite s m e hm) :
    Ordinary x := by
  have hzero : valueRank (-0 : Float).toModel.unpack = (0, 0, 0) := by decide +kernel
  constructor
  · show x.toModel.unpack.isFinite = true
    rw [h]
    rfl
  · rintro rfl
    rw [h] at hzero
    cases s <;> cases hzero

/-- A whole number of few bits is exact, and zero has no sign. -/
theorem ordinary_ofInt {i : Int} (h : i.natAbs < 2 ^ 53) : Ordinary (Float.ofInt i) := by
  rcases i with n | n
  · rcases Nat.eq_zero_or_pos n with rfl | hn
    · exact ⟨by decide +kernel, by decide +kernel⟩
    · obtain ⟨m, e, hc, he, hpack⟩ := ofNat_eq_pack hn h
      apply ordinary_of_unpack (s := .positive) (e := e) hc.pos
      show (Float.ofNat n).toModel.unpack = _
      rw [hpack]
      exact unpack_pack hc he
  · obtain ⟨m, e, hc, he, hpack⟩ := ofNat_eq_pack n.succ_pos h
    apply ordinary_of_unpack (s := .negative) (e := e) hc.pos
    show (Float.neg (Float.ofNat n.succ)).toModel.unpack = _
    rw [hpack]
    show (Float.Model.pack (Float.Model.unpack (Float.Model.pack _)).neg).unpack = _
    have hunpack : (Float.Model.pack (.finite .positive m e hc.pos)).unpack =
        .finite .positive m e hc.pos := unpack_pack hc he
    rw [hunpack]
    exact unpack_pack hc he

end Binary64

end Guillotine
