import Guillotine.Decimal.Nearest
import Guillotine.Proofs.Decimal.Packing
import Guillotine.Proofs.Decimal.Shortest

/-! A decimal in the interval of a binary number is read as that number. Small decimals are read by
one multiplication or division of numbers that are exact, and others by rounding the quotient
itself; both are the rounding of the same value. -/
namespace Guillotine

open Float.Model Float.Model.UnpackedFloat

namespace Binary64

variable {m m₁ m₂ : Nat} {e e₁ e₂ : Int} {v : ℚ}

/-! ### Products and quotients -/

theorem targetExponent_mono {s t : Int} (h : s ≤ t) :
    Format.binary64.targetExponent s ≤ Format.binary64.targetExponent t := by
  rw [targetExponent_eq, targetExponent_eq]
  omega

/-- An integer with a full mantissa at some exponent, in the interval of a number, is rounded to
that number. -/
theorem roundExact_of_holds (s : Sign) {n : Nat} {E : Int} (hc : Canonical m e)
    (hv : Holds m e (n * 2 ^ E)) (hfull : 2 ^ 52 ≤ n) :
    roundWithAccuracy Format.binary64 s n E .exact = .finite s m e hc.pos := by
  have hpos : 0 < n := Nat.lt_of_lt_of_le (by decide) hfull
  have hlog : 52 ≤ n.log2 := (Nat.le_log2 hpos.ne').2 hfull
  have hq : Quotient n 1 E (n * 2 ^ E) := ⟨one_pos, by simp⟩
  have h := roundWithAccuracy_of_holds s hc hv hq (by
    rw [targetExponent_eq, totalExponent, Nat.div_one]
    omega)
  rw [Nat.div_one, Nat.mod_one] at h
  exact h

/-- A product in the interval of a number is rounded to that number. -/
theorem mul_of_holds (hc : Canonical m e) (hv : Holds m e v) (h₁ : 0 < m₁) (h₂ : 0 < m₂)
    (hfull : 2 ^ 52 ≤ m₁ * m₂) (hval : v = m₁ * 2 ^ e₁ * (m₂ * 2 ^ e₂)) :
    UnpackedFloat.mul Format.binary64 (.finite .positive m₁ e₁ h₁) (.finite .positive m₂ e₂ h₂) =
      .finite .positive m e hc.pos := by
  refine roundExact_of_holds _ hc ?_ hfull
  have : ((m₁ * m₂ : ℕ) : ℚ) * 2 ^ (e₁ + e₂) = v := by
    rw [hval, zpow_add₀ (by norm_num)]
    push_cast
    ring
  rwa [this]

theorem two_zpow_le_mul (h : 0 < m) (e : Int) : (2 : ℚ) ^ (totalExponent m e - 1) ≤ m * 2 ^ e := by
  have hq : Quotient m 1 e (m * 2 ^ e) := ⟨one_pos, by simp⟩
  have := hq.two_zpow_le (by simpa using h.ne')
  rwa [Nat.div_one] at this

theorem mul_lt_two_zpow (m : Nat) (e : Int) : (m : ℚ) * 2 ^ e < 2 ^ totalExponent m e := by
  have hq : Quotient m 1 e (m * 2 ^ e) := ⟨one_pos, by simp⟩
  have := hq.lt_two_zpow
  rwa [Nat.div_one] at this

/-- A quotient in the interval of a number is rounded to that number. -/
theorem div_of_holds (hc : Canonical m e) (hv : Holds m e v) (h₁ : 0 < m₁) (h₂ : 0 < m₂)
    (hval : v = m₁ * 2 ^ e₁ / (m₂ * 2 ^ e₂)) :
    UnpackedFloat.div Format.binary64 (.finite .positive m₁ e₁ h₁) (.finite .positive m₂ e₂ h₂) =
      .finite .positive m e hc.pos := by
  have hm₂ : (0 : ℚ) < m₂ := by exact_mod_cast h₂
  simp only [UnpackedFloat.div, divCore]
  generalize hE : min (e₁ - e₂) (Format.binary64.targetExponent
    (totalExponent m₁ e₁ - totalExponent m₂ e₂)) = E
  have hshift : ((e₁ - e₂ - E).toNat : Int) = e₁ - e₂ - E := by omega
  generalize (e₁ - e₂ - E).toNat = k at *
  have hq : Quotient (m₁ <<< k) m₂ E v := by
    refine ⟨h₂, ?_⟩
    have hpow : (2 : ℚ) ^ k * 2 ^ E * 2 ^ e₂ = 2 ^ e₁ := by
      rw [← zpow_natCast, hshift, ← zpow_add₀ (by norm_num), ← zpow_add₀ (by norm_num)]
      ring_nf
    rw [hval, Nat.shiftLeft_eq, ← hpow]
    push_cast
    field_simp
  refine roundWithAccuracy_of_holds _ hc hv hq ?_
  -- The quotient is no smaller than the exponents of its parts promise.
  have hlow : (2 : ℚ) ^ (totalExponent m₁ e₁ - totalExponent m₂ e₂ - 1) < v := by
    have hnum := two_zpow_le_mul h₁ e₁
    have hden := mul_lt_two_zpow m₂ e₂
    have hsplit : totalExponent m₁ e₁ - totalExponent m₂ e₂ - 1 =
        (totalExponent m₁ e₁ - 1) - totalExponent m₂ e₂ := by ring
    rw [hval, hsplit, zpow_sub₀ (by norm_num), div_lt_div_iff₀ (by positivity) (by positivity)]
    have : (0 : ℚ) < 2 ^ (totalExponent m₁ e₁ - 1) := by positivity
    have : (0 : ℚ) < 2 ^ totalExponent m₂ e₂ := by positivity
    nlinarith
  have hlt := hlow.trans hq.lt_two_zpow
  rw [zpow_lt_zpow_iff_right₀ (by norm_num)] at hlt
  have := targetExponent_mono (s := totalExponent m₁ e₁ - totalExponent m₂ e₂)
    (t := totalExponent (m₁ <<< k / m₂) E) (by omega)
  omega

/-! ### Decimals -/

section Decimals

variable {d : Nat} {g : Int}

/-- How far the leading digit of a decimal in the interval of a number can be from the point. -/
structure Moderate (d : Nat) (g : Int) : Prop where
  pos : 0 < d
  low : -330 < (Shortest.digitCount d : Int) + g
  high : (Shortest.digitCount d : Int) + g ≤ 310

theorem ten_zpow_lt_two_zpow : (10 : ℚ) ^ (-330 : Int) < 2 ^ (-1075 : Int) := by
  have h : 2 ^ 1075 < 10 ^ 330 := by decide +kernel
  have hcast : (2 : ℚ) ^ 1075 < 10 ^ 330 := by exact_mod_cast h
  rw [zpow_neg, zpow_neg]
  exact (inv_lt_inv₀ (by positivity) (by positivity)).2 hcast

theorem two_zpow_lt_ten_zpow : (2 : ℚ) ^ (1024 : Int) < 10 ^ (310 : Int) := by
  have h : 2 ^ 1024 < 10 ^ 310 := by decide +kernel
  exact_mod_cast h

theorem Holds.lt_two_zpow (hc : Canonical m e) (he : e ≤ 971) (hv : Holds m e v) :
    v < 2 ^ (1024 : Int) := by
  have hpow : (2 : ℚ) ^ (53 + e) ≤ 2 ^ (1024 : Int) :=
    zpow_le_zpow_right₀ (by norm_num) (by omega)
  exact (hv.lt_two_zpow_add hc).trans_le hpow

theorem Holds.two_zpow_le (hc : Canonical m e) (hv : Holds m e v) :
    (2 : ℚ) ^ (-1075 : Int) ≤ v := by
  have hm : (1 : ℚ) ≤ m := by exact_mod_cast hc.pos
  have hq : (quarters m e : ℚ) ≤ 2 := by exact_mod_cast quarters_le m e
  have hleast := hc.least
  have hpow : (2 : ℚ) ^ (-1076 : Int) ≤ 2 ^ (e - 2) := zpow_le_zpow_right₀ (by norm_num) (by omega)
  have hpos : (0 : ℚ) < 2 ^ (e - 2) := by positivity
  calc (2 : ℚ) ^ (-1075 : Int) = 2 * 2 ^ (-1076 : Int) := by
        rw [← zpow_one_add₀ (by norm_num)]
        rfl
    _ ≤ (4 * m - quarters m e) * 2 ^ (e - 2) := by nlinarith
    _ ≤ v := hv.low

theorem Holds.moderate (hc : Canonical m e) (he : e ≤ 971) (hv : Holds m e (d * 10 ^ g)) :
    Moderate d g := by
  have hlow := hv.two_zpow_le hc
  have hhigh := hv.lt_two_zpow hc he
  have hten : (0 : ℚ) < 10 ^ g := by positivity
  have hpos : 0 < d := by
    rw [Nat.pos_iff_ne_zero]
    rintro rfl
    have : (0 : ℚ) < 2 ^ (-1075 : Int) := by positivity
    simp only [Nat.cast_zero, zero_mul] at hlow
    linarith
  have hcount := Shortest.digitCount_pos d
  refine ⟨hpos, ?_, ?_⟩
  · have hd : (d : ℚ) < 10 ^ Shortest.digitCount d := by
      exact_mod_cast Shortest.lt_pow_digitCount d
    have hlt : (d : ℚ) * 10 ^ g < 10 ^ ((Shortest.digitCount d : Int) + g) := by
      rw [zpow_add₀ (by norm_num), zpow_natCast]
      exact mul_lt_mul_of_pos_right hd hten
    have := ten_zpow_lt_two_zpow.trans_le (hlow.trans hlt.le)
    rwa [zpow_lt_zpow_iff_right₀ (by norm_num)] at this
  · have hd : (10 : ℚ) ^ (Shortest.digitCount d - 1) ≤ d := by
      exact_mod_cast Shortest.pow_digitCount_le hpos
    have hle : (10 : ℚ) ^ ((Shortest.digitCount d : Int) - 1 + g) ≤ d * 10 ^ g := by
      have hcast : (Shortest.digitCount d : Int) - 1 = (Shortest.digitCount d - 1 : ℕ) := by omega
      rw [zpow_add₀ (by norm_num), hcast, zpow_natCast]
      exact mul_le_mul_of_nonneg_right hd hten.le
    have := (hle.trans_lt hhigh).trans two_zpow_lt_ten_zpow
    rw [zpow_lt_zpow_iff_right₀ (by norm_num)] at this
    omega

/-- A decimal in the interval of a number is read as that number. -/
theorem ofScientific_model (hc : Canonical m e) (he : e ≤ 971) (hv : Holds m e (d * 10 ^ g)) :
    UnpackedFloat.ofScientific Format.binary64 d g = .finite .positive m e hc.pos := by
  obtain ⟨hd, hlow, hhigh⟩ := hv.moderate hc he
  have hcount := Shortest.digitCount_pos d
  have hdigits : Shortest.digitCount d ≤ d.log2 + 1 := by
    refine (Nat.length_toDigits_le_iff (by omega) (by omega)).2 ?_
    exact Nat.lt_log2_self.trans_le (Nat.pow_le_pow_left (by omega) _)
  unfold UnpackedFloat.ofScientific
  rw [dif_neg hd.ne', if_neg (by norm_num; omega), if_neg (by norm_num; omega)]
  split
  next hg =>
    obtain ⟨n, rfl⟩ := Int.eq_ofNat_of_zero_le hg
    refine mul_of_holds hc hv _ _ ?_ ?_
    · have hten : 1 ≤ 10 ^ n := Nat.one_le_pow _ _ (by omega)
      rw [Nat.shiftLeft_eq, Int.toNat_natCast]
      calc 2 ^ 52 ≤ 1 * 2 ^ 53 * 1 := by norm_num
        _ ≤ d * 2 ^ 53 * 10 ^ n := Nat.mul_le_mul (Nat.mul_le_mul_right _ hd) hten
    · have hcancel : ((2 ^ 53 : ℕ) : ℚ) * 2 ^ (-53 : Int) = 1 := by norm_num
      rw [Nat.shiftLeft_eq, Int.toNat_natCast]
      change (d : ℚ) * 10 ^ (n : Int) =
        (d * 2 ^ 53 : ℕ) * 2 ^ (-53 : Int) * ((10 ^ n : ℕ) * 2 ^ (0 : Int))
      rw [Nat.cast_mul, mul_assoc (d : ℚ), hcancel, zpow_zero, zpow_natCast]
      push_cast
      ring
  next hg =>
    obtain ⟨n, hn⟩ := Int.eq_ofNat_of_zero_le (a := -g) (by omega)
    obtain rfl : g = -(n : Int) := by omega
    refine div_of_holds hc hv _ _ ?_
    rw [neg_neg, Int.toNat_natCast, zpow_neg, zpow_natCast, zpow_zero]
    push_cast
    ring

/-! ### Exact parts -/

/-- A number of the model with a full mantissa and a given value. -/
structure Exact (u : UnpackedFloat) (v : ℚ) (m : Nat) (e : Int) : Prop where
  full : 2 ^ 52 ≤ m
  value : (m : ℚ) * 2 ^ e = v
  eq : u = .finite .positive m e (Nat.lt_of_lt_of_le (by decide) full)

theorem holds_self (m : Nat) (e : Int) : Holds m e (m * 2 ^ e) := by
  have hpos : (0 : ℚ) < 2 ^ (e - 2) := by positivity
  have hsplit : (2 : ℚ) ^ e = 4 * 2 ^ (e - 2) := by
    rw [two_zpow_sub_two]
    ring
  have hq : (1 : ℚ) ≤ quarters m e := by
    unfold quarters
    split <;> norm_num
  rw [hsplit]
  exact ⟨by nlinarith, by nlinarith, fun _ => ⟨by nlinarith, by nlinarith⟩⟩

/-- A positive natural number with few digits is exact. -/
theorem exists_exact_ofNat {n : Nat} (hn : 0 < n) (hlt : n < 2 ^ 53) :
    ∃ m e, e ≤ 0 ∧ Canonical m e ∧ Exact (.ofNat Format.binary64 n) n m e := by
  have hlog : n.log2 ≤ 52 := Nat.le_of_lt_succ ((Nat.log2_lt hn.ne').2 hlt)
  have htarget : Format.binary64.targetExponent (totalExponent n 0) = n.log2 - 52 := by
    rw [targetExponent_eq, totalExponent]
    omega
  obtain ⟨k, hk⟩ : ∃ k, n.log2 + k = 52 := ⟨52 - n.log2, by omega⟩
  have hfull : 2 ^ 52 ≤ n * 2 ^ k := by
    rw [← hk, Nat.pow_add]
    exact Nat.mul_le_mul_right _ (Nat.log2_self_le hn.ne')
  have hless : n * 2 ^ k < 2 ^ 53 := by
    have : 2 ^ 53 = 2 ^ (n.log2 + 1) * 2 ^ k := by
      rw [← Nat.pow_add]
      congr 1
      omega
    rw [this]
    exact Nat.mul_lt_mul_of_pos_right Nat.lt_log2_self (by positivity)
  have hc : Canonical (n * 2 ^ k) (-k) := ⟨by positivity, hless, by omega, .inl hfull⟩
  have hvalue : ((n * 2 ^ k : ℕ) : ℚ) * 2 ^ (-k : Int) = n := by
    rw [zpow_neg, zpow_natCast]
    push_cast
    field_simp
  refine ⟨n * 2 ^ k, -k, by omega, hc, hfull, hvalue, ?_⟩
  have hcompare : compare (n : Int) 0 = .gt := by
    rw [compare_gt_iff_gt]
    omega
  have hshift : (-((n.log2 : Int) - 52)).toNat = k := by omega
  have hround := roundExact_of_holds .positive hc (holds_self _ _) hfull
  simp only [UnpackedFloat.ofNat, UnpackedFloat.ofInt, UnpackedFloat.normalize, hcompare,
    Int.toNat_natCast, UnpackedFloat.round, htarget, decreaseExponent, zero_sub, hshift,
    Nat.shiftLeft_eq]
  exact hround

/-- Whether a power of ten that is kept has a full mantissa and the right value. -/
def keepsPower (k : Fin 23) : Bool :=
  match ofFloat (getElem Float.exactlyRepresentablePowersOfTen k.val k.isLt) with
  | .finite false m e => 2 ^ 52 ≤ m ∧ m * 2 ^ e.toNat = 10 ^ k.val * 2 ^ (-e).toNat
  | _ => false

/-- The powers of ten that are kept are exact. -/
theorem exists_exact_power {k : Nat} (hk : k < Float.exactlyRepresentablePowersOfTen.size) :
    ∃ m e, Exact (Float.exactlyRepresentablePowersOfTen[k]).toModel.unpack (10 ^ k) m e := by
  have hall : ∀ k : Fin 23, keepsPower k = true := by decide +kernel
  have hkeeps := hall ⟨k, hk⟩
  unfold keepsPower at hkeeps
  split at hkeeps
  next m e hx =>
    rw [decide_eq_true_eq] at hkeeps
    obtain ⟨hfull, hvalue⟩ := hkeeps
    refine ⟨m, e, hfull, ?_, unpack_of_ofFloat (Nat.lt_of_lt_of_le (by decide) hfull) hx⟩
    have hpow := Shortest.zpow_eq_div (b := 2) (by omega) e
    have hcast : (m : ℚ) * (2 ^ e.toNat : ℕ) = 10 ^ k * (2 ^ (-e).toNat : ℕ) := by
      exact_mod_cast hvalue
    push_cast at hpow hcast
    rw [hpow, ← mul_div_assoc, hcast]
    field_simp
  next => cases hkeeps

/-- A small natural number as a binary number is exact. -/
theorem exists_exact_toFloat {n : Nat} (hn : 0 < n) (hlt : n < 2 ^ 53) :
    ∃ m e, Exact n.toUInt64.toFloat.toModel.unpack n m e := by
  obtain ⟨m, e, he, hc, hexact⟩ := exists_exact_ofNat hn hlt
  refine ⟨m, e, hexact.full, hexact.value, ?_⟩
  have hword : n.toUInt64.toNat = n := by
    rw [Nat.toUInt64_eq, UInt64.toNat_ofNat']
    omega
  refine Eq.trans ?_ (unpack_pack hc (by omega))
  change UnpackedFloat.unpack Format.binary64 (UnpackedFloat.pack Format.binary64
    (.ofNat Format.binary64 n.toUInt64.toNat)) = _
  rw [hword, hexact.eq]

section Operations

variable {x y : Float} {p q : ℚ} (hx : Exact x.toModel.unpack p m₁ e₁)
  (hy : Exact y.toModel.unpack q m₂ e₂) (hc : Canonical m e)

include hx hy

theorem Exact.div_of_holds (hv : Holds m e (p / q)) :
    x / y = Float.ofModel (Float.Model.pack (.finite .positive m e hc.pos)) := by
  change Float.ofModel (Float.Model.pack (UnpackedFloat.div Format.binary64 _ _)) = _
  rw [hx.eq, hy.eq, Binary64.div_of_holds hc hv _ _ (by rw [hx.value, hy.value])]

theorem Exact.mul_of_holds (hv : Holds m e (p * q)) :
    x * y = Float.ofModel (Float.Model.pack (.finite .positive m e hc.pos)) := by
  have hm₁ := hx.full
  have hm₂ := hy.full
  change Float.ofModel (Float.Model.pack (UnpackedFloat.mul Format.binary64 _ _)) = _
  rw [hx.eq, hy.eq, Binary64.mul_of_holds hc hv _ _ (by nlinarith) (by rw [hx.value, hy.value])]

end Operations

/-- A decimal in the interval of a number is read as that number. -/
theorem ofScientific_of_holds (hc : Canonical m e) (he : e ≤ 971)
    (hv : Holds m e (d * 10 ^ g)) : Float.ofScientific d (g < 0) g.natAbs =
      Float.ofModel (Float.Model.pack (.finite .positive m e hc.pos)) := by
  have hd := (hv.moderate hc he).pos
  unfold Float.ofScientific
  split
  next hsmall =>
    obtain ⟨m₁, e₁, h₁⟩ := exists_exact_toFloat hd hsmall.1
    obtain ⟨m₂, e₂, h₂⟩ := exists_exact_power (k := g.natAbs) (Nat.lt_succ_of_le hsmall.2)
    by_cases hg : g < 0
    · have hvalue : (d : ℚ) * 10 ^ g = d / 10 ^ g.natAbs := by
        have hexponent : g = -(g.natAbs : Int) := by omega
        rw [hexponent, zpow_neg, zpow_natCast, Int.natAbs_neg, Int.natAbs_natCast]
        rfl
      rw [hvalue] at hv
      rw [if_pos (decide_eq_true hg)]
      exact h₁.div_of_holds h₂ hc hv
    · have hvalue : (d : ℚ) * 10 ^ g = d * 10 ^ g.natAbs := by
        have hexponent : g = (g.natAbs : Int) := by omega
        rw [hexponent, zpow_natCast, Int.natAbs_natCast]
      rw [hvalue] at hv
      rw [if_neg (by simpa using hg)]
      exact h₁.mul_of_holds h₂ hc hv
  next =>
    have hexponent : (if decide (g < 0) = true then Int.negOfNat g.natAbs
        else Int.ofNat g.natAbs) = g := by
      split
      next hg =>
        rw [decide_eq_true_eq] at hg
        rw [Int.negOfNat_eq]
        simp only [Int.ofNat_eq_natCast]
        omega
      next hg =>
        rw [decide_eq_true_eq] at hg
        simp only [Int.ofNat_eq_natCast]
        omega
    rw [hexponent]
    change Float.ofModel (Float.Model.pack (UnpackedFloat.ofScientific Format.binary64 d g)) = _
    rw [ofScientific_model hc he hv]

end Decimals

end Binary64

/-! ### Reading what was written -/

open Binary64

theorem nearestFloat?_of_holds {x : Float} {negative : Bool} {m d : Nat} {e g : Int} (hm : 0 < m)
    (hx : ofFloat x = .finite negative m e) (hv : Holds m e (d * 10 ^ g)) :
    nearestFloat? negative d g = some x := by
  obtain ⟨hc, he⟩ := canonical_of_ofFloat hm hx
  obtain ⟨hd, hlow, hhigh⟩ := hv.moderate hc he
  have hmagnitude : (if d = 0 ∨ (Shortest.digitCount d : Int) + g < -330 then (0 : Float)
      else if 310 < (Shortest.digitCount d : Int) + g then 1 / 0
      else Float.ofScientific d (g < 0) g.natAbs) =
      Float.ofModel (Float.Model.pack (.finite .positive m e hm)) := by
    rw [if_neg (by omega), if_neg (by omega)]
    exact ofScientific_of_holds hc he hv
  have hunpack : (Float.Model.pack (.finite .positive m e hm)).unpack =
      .finite .positive m e hm := unpack_pack hc he
  have hfinite : (Float.ofModel (Float.Model.pack (.finite .positive m e hm))).isFinite = true := by
    change (Float.Model.unpack _).isFinite = true
    rw [hunpack]
    rfl
  unfold nearestFloat?
  simp only [hmagnitude, hfinite, if_true]
  rw [eq_pack_of_ofFloat hm hx]
  cases negative with
  | false => rfl
  | true =>
    change some (Float.ofModel (Float.Model.pack (Float.Model.unpack _).neg)) = _
    rw [hunpack]
    rfl

/-- A finite number is read from its shortest decimal. -/
theorem nearestFloat?_shortestDecimal {x : Float} {negative : Bool} {m : Nat} {e : Int}
    (hx : ofFloat x = .finite negative m e) :
    nearestFloat? negative (shortestDecimal m e).1 (shortestDecimal m e).2 = some x := by
  unfold shortestDecimal
  split
  next hm =>
    subst hm
    rw [eq_zero_of_ofFloat hx]
    cases negative <;> decide +kernel
  next hm =>
    have hpos := Nat.pos_of_ne_zero hm
    exact nearestFloat?_of_holds hpos hx
      (Shortest.ofPositive_spec (canonical_of_ofFloat hpos hx).1).2

/-! ### What is read -/

/-- The negative of a finite number is finite. -/
theorem isFinite_neg {x : Float} (h : x.isFinite = true) : (-x).isFinite = true := by
  obtain ⟨negative, m, e, hx⟩ := (isFinite_iff x).1 h
  rcases Nat.eq_zero_or_pos m with rfl | hm
  · rw [eq_zero_of_ofFloat hx]
    cases negative <;> decide +kernel
  · obtain ⟨hc, he⟩ := canonical_of_ofFloat hm hx
    change (Float.Model.pack x.toModel.unpack.neg).unpack.isFinite = true
    rw [unpack_of_ofFloat hm hx]
    have hunpack : (Float.Model.pack (UnpackedFloat.neg (.finite (sign negative) m e hm))).unpack =
        .finite (-sign negative) m e hm := unpack_pack hc he
    rw [hunpack]
    rfl

/-- Only finite numbers are read. -/
theorem isFinite_of_nearestFloat? {x : Float} {negative : Bool} {m : Nat} {e : Int}
    (h : nearestFloat? negative m e = some x) : x.isFinite = true := by
  unfold nearestFloat? at h
  obtain ⟨hfinite, hx⟩ := Option.ite_none_right_eq_some.1 h
  obtain rfl := Option.some.inj hx
  cases negative with
  | false => exact hfinite
  | true => exact isFinite_neg hfinite

end Guillotine
