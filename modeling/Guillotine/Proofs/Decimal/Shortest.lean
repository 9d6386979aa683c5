import Guillotine.Decimal.Shortest
import Guillotine.Proofs.Decimal.Rounding

/-! The shortest decimal of a binary number lies in the interval that rounds to it. On the grid of
seventeen digits a step is smaller than the interval, so the search ends at a point of the interval
there at the latest. -/
namespace Guillotine

namespace Shortest

variable {m n num den fuel d : Nat} {e grid : Int}

/-! ### Digits -/

theorem lt_pow_digitCount (n : Nat) : n < 10 ^ digitCount n :=
  (Nat.length_toDigits_le_iff (by omega) Nat.length_toDigits_pos).1 (Nat.le_refl _)

theorem digitCount_pos (n : Nat) : 0 < digitCount n := Nat.length_toDigits_pos

theorem pow_digitCount_le (hn : 0 < n) : 10 ^ (digitCount n - 1) ≤ n := by
  rcases Nat.eq_zero_or_pos (digitCount n - 1) with h | h
  · rw [h]
    omega
  · by_contra hlt
    have := (Nat.length_toDigits_le_iff (n := n) (b := 10) (by omega) h).2 (by omega)
    have := digitCount_pos n
    unfold digitCount at *
    omega

/-! ### Canonical decimals -/

/-- A canonical decimal has no trailing zero, and its exponent is zero if it is. -/
def IsCanonical (m : Nat) (e : Int) : Prop := (m = 0 ∧ e = 0) ∨ m % 10 ≠ 0

theorem dropZeros_spec (h : m < 10 ^ fuel) :
    IsCanonical (dropZeros (fuel + 1) m e).1 (dropZeros (fuel + 1) m e).2 ∧
      ((dropZeros (fuel + 1) m e).1 : ℚ) * 10 ^ (dropZeros (fuel + 1) m e).2 = m * 10 ^ e := by
  induction fuel generalizing m e with
  | zero =>
    obtain rfl : m = 0 := by omega
    simp [dropZeros, IsCanonical]
  | succ fuel ih =>
    rw [dropZeros]
    split
    next hm => simp [hm, IsCanonical]
    next hm =>
      split
      next hten =>
        obtain ⟨hcanonical, hvalue⟩ := ih (m := m / 10) (e := e + 1) (by omega)
        refine ⟨hcanonical, hvalue.trans ?_⟩
        have hdiv : (m : ℚ) = (m / 10 : ℕ) * 10 := by
          exact_mod_cast (Nat.div_mul_cancel (Nat.dvd_of_mod_eq_zero hten)).symm
        rw [hdiv, zpow_add_one₀ (by norm_num)]
        ring
      next hten => exact ⟨.inr hten, rfl⟩

/-- The canonical form of a decimal is canonical and has the same value. -/
theorem canonical_spec (m : Nat) (e : Int) :
    IsCanonical (canonical m e).1 (canonical m e).2 ∧
      ((canonical m e).1 : ℚ) * 10 ^ (canonical m e).2 = m * 10 ^ e :=
  dropZeros_spec (lt_pow_digitCount m)

/-! ### Grids -/

open Binary64

theorem zpow_eq_div {b : Nat} (hb : 0 < b) (z : Int) :
    (b : ℚ) ^ z = (b ^ z.toNat : ℕ) / (b ^ (-z).toNat : ℕ) := by
  have hne : (b : ℚ) ≠ 0 := by exact_mod_cast hb.ne'
  rcases Int.le_total 0 z with hz | hz
  · obtain ⟨n, rfl⟩ := Int.eq_ofNat_of_zero_le hz
    simp
  · obtain ⟨n, hn⟩ := Int.eq_ofNat_of_zero_le (Int.neg_nonneg.2 hz)
    obtain rfl : z = -(n : Int) := by omega
    simp

theorem scale_pos (m : Nat) (e grid : Int) : 0 < (Target.onGrid m e grid).scale := by
  simp only [Target.onGrid, Nat.pow_eq]
  positivity

/-- The numbers of a target as multiples of its scale. -/
theorem unit_div_scale (m : Nat) (e grid : Int) :
    ((2 ^ (e - 2).toNat * 10 ^ (-grid).toNat : ℕ) : ℚ) / (Target.onGrid m e grid).scale =
      2 ^ (e - 2) / 10 ^ grid := by
  have h2 := zpow_eq_div (b := 2) (by omega) (e - 2)
  have h10 := zpow_eq_div (b := 10) (by omega) grid
  have hneg : -(e - 2) = 2 - e := by ring
  rw [hneg] at h2
  push_cast at h2 h10
  rw [h2, h10]
  simp only [Target.onGrid, Nat.pow_eq]
  push_cast
  field_simp

/-- What one step of the mantissa, in quarters, is on the grid. -/
def unit (e grid : Int) : Nat := 2 ^ (e - 2).toNat * 10 ^ (-grid).toNat

section Compare

variable {c : Nat}

theorem mul_unit_eq (m c : Nat) (e grid : Int) : ((c * unit e grid : ℕ) : ℚ) * 10 ^ grid =
    c * 2 ^ (e - 2) * (Target.onGrid m e grid).scale := by
  have hscale : (0 : ℚ) < (Target.onGrid m e grid).scale := by
    exact_mod_cast scale_pos m e grid
  have h := unit_div_scale m e grid
  rw [div_eq_div_iff hscale.ne' (by positivity)] at h
  rw [Nat.cast_mul, mul_assoc, unit, h]
  ring

theorem mul_unit_le_iff : c * unit e grid ≤ d * (Target.onGrid m e grid).scale ↔
    (c : ℚ) * 2 ^ (e - 2) ≤ d * 10 ^ grid := by
  have hscale : (0 : ℚ) < (Target.onGrid m e grid).scale := by
    exact_mod_cast scale_pos m e grid
  have hten : (0 : ℚ) < 10 ^ grid := by positivity
  rw [← Nat.cast_le (α := ℚ), ← mul_le_mul_iff_left₀ hten, mul_unit_eq m, Nat.cast_mul,
    mul_right_comm (d : ℚ), mul_le_mul_iff_left₀ hscale]

theorem le_mul_unit_iff : d * (Target.onGrid m e grid).scale ≤ c * unit e grid ↔
    d * 10 ^ grid ≤ (c : ℚ) * 2 ^ (e - 2) := by
  have hscale : (0 : ℚ) < (Target.onGrid m e grid).scale := by
    exact_mod_cast scale_pos m e grid
  have hten : (0 : ℚ) < 10 ^ grid := by positivity
  rw [← Nat.cast_le (α := ℚ), ← mul_le_mul_iff_left₀ hten, mul_unit_eq m, Nat.cast_mul,
    mul_right_comm, mul_le_mul_iff_left₀ hscale]

theorem mul_unit_lt_iff : c * unit e grid < d * (Target.onGrid m e grid).scale ↔
    (c : ℚ) * 2 ^ (e - 2) < d * 10 ^ grid := by
  rw [← not_le, ← not_le, le_mul_unit_iff]

theorem lt_mul_unit_iff : d * (Target.onGrid m e grid).scale < c * unit e grid ↔
    d * 10 ^ grid < (c : ℚ) * 2 ^ (e - 2) := by
  rw [← not_le, ← not_le, mul_unit_le_iff]

end Compare

theorem cast_sub_quarters (hm : 0 < m) (e : Int) :
    ((4 * m - quarters m e : ℕ) : ℚ) = 4 * m - quarters m e := by
  have := quarters_le m e
  rw [Nat.cast_sub (by omega), Nat.cast_mul]
  rfl

/-- A target holds a point of its grid just if the point lies in the interval. -/
theorem holds_iff (hm : 0 < m) : (Target.onGrid m e grid).holds d = true ↔
    Holds m e (d * 10 ^ grid) := by
  have hlow : (Target.onGrid m e grid).low = (4 * m - quarters m e) * unit e grid := rfl
  have hhigh : (Target.onGrid m e grid).high = (4 * m + 2) * unit e grid := rfl
  have hclosed : (Target.onGrid m e grid).closed = decide (m % 2 = 0) := rfl
  have hcast : ((4 * m + 2 : ℕ) : ℚ) = 4 * m + 2 := by push_cast; rfl
  rw [Target.holds, hlow, hhigh, hclosed]
  by_cases heven : m % 2 = 0
  · simp only [heven, decide_true, if_true, Bool.and_eq_true, decide_eq_true_eq]
    rw [mul_unit_le_iff, le_mul_unit_iff, cast_sub_quarters hm, hcast]
    exact ⟨fun ⟨hl, hh⟩ => ⟨hl, hh, by omega⟩, fun h => ⟨h.low, h.high⟩⟩
  · simp only [heven, decide_false, Bool.false_eq_true, if_false, Bool.and_eq_true,
      decide_eq_true_eq]
    rw [mul_unit_lt_iff, lt_mul_unit_iff, cast_sub_quarters hm, hcast]
    exact ⟨fun ⟨hl, hh⟩ => ⟨hl.le, hh.le, fun _ => ⟨hl, hh⟩⟩, fun h => h.inner (by omega)⟩

/-! ### The search -/

theorem choose_eq_some {t : Target} (h : t.choose = some d) : t.holds d = true := by
  unfold Target.choose at h
  dsimp only at h
  split at h
  next hd hd' =>
    obtain rfl := Option.some.inj h
    split
    · exact hd
    · exact hd'
  next hd hd' => rwa [← Option.some.inj h]
  next hd hd' => rwa [← Option.some.inj h]
  next => cases h

theorem choose_eq_none {t : Target} (h : t.choose = none) :
    t.holds t.below = false ∧ t.holds (t.below + 1) = false := by
  unfold Target.choose at h
  dsimp only at h
  split at h
  next => cases h
  next => cases h
  next => cases h
  next hd hd' => exact ⟨hd, hd'⟩

/-- A number is at least the power of ten of its leading digit. -/
theorem pow_leadingExponent_le (hnum : 0 < num) (hden : 0 < den) :
    (10 : ℚ) ^ leadingExponent num den ≤ num / den := by
  have hden' : (0 : ℚ) < den := by exact_mod_cast hden
  unfold leadingExponent
  split
  next hle =>
    have hq : 0 < num / den := Nat.div_pos hle hden
    have hpos := digitCount_pos (num / den)
    have hexponent : (digitCount (num / den) : Int) - 1 =
        ((digitCount (num / den) - 1 : ℕ) : Int) := by
      omega
    have hpow : ((10 ^ (digitCount (num / den) - 1) : ℕ) : ℚ) ≤ (num / den : ℕ) :=
      Nat.cast_le.2 (pow_digitCount_le hq)
    rw [hexponent, zpow_natCast]
    push_cast at hpow
    exact hpow.trans Nat.cast_div_le
  next hlt =>
    -- The denominator is at most the numerator times the rounded-up quotient.
    generalize hc : (den + num - 1) / num = c
    have hmul : num * c + num > den + num - 1 := by
      rw [← hc]
      exact Nat.lt_mul_div_succ _ hnum
    have hden_le : den ≤ num * 10 ^ digitCount (c - 1) := by
      have := lt_pow_digitCount (c - 1)
      have : num * c ≤ num * 10 ^ digitCount (c - 1) := Nat.mul_le_mul_left num (by omega)
      omega
    rw [zpow_neg, zpow_natCast, inv_eq_one_div, div_le_div_iff₀ (by positivity) hden', one_mul]
    exact_mod_cast hden_le

/-- Seventeen digits suffice. -/
theorem choose_ne_none (hc : Canonical m e) {lead : Int}
    (hlead : (10 : ℚ) ^ lead ≤ m * 2 ^ e) : (Target.onGrid m e (lead - 16)).choose ≠ none := by
  intro hnone
  obtain ⟨hdown, hup⟩ := choose_eq_none hnone
  have hvalue : (Target.onGrid m e (lead - 16)).value = 4 * m * unit e (lead - 16) := rfl
  have hscale := scale_pos m e (lead - 16)
  have hbelow := Nat.div_mul_le_self (4 * m * unit e (lead - 16))
    (Target.onGrid m e (lead - 16)).scale
  have habove := Nat.lt_mul_div_succ (4 * m * unit e (lead - 16)) hscale
  rw [Nat.mul_comm _ (_ + 1)] at habove
  rw [Target.below, hvalue] at hdown hup
  generalize 4 * m * unit e (lead - 16) / (Target.onGrid m e (lead - 16)).scale = d at *
  rw [le_mul_unit_iff] at hbelow
  rw [mul_unit_lt_iff] at habove
  rw [← Bool.not_eq_true, holds_iff hc.pos] at hdown hup
  have hstep : (10 : ℚ) ^ (lead - 16) * 10 ^ 16 = 10 ^ lead := by
    rw [← zpow_natCast, ← zpow_add₀ (by norm_num)]
    norm_num
  have hsplit : (2 : ℚ) ^ e = 4 * 2 ^ (e - 2) := by
    rw [two_zpow_sub_two]
    ring
  have hpos : (0 : ℚ) < 2 ^ (e - 2) := by positivity
  have hq : (quarters m e : ℚ) ≤ 2 := by exact_mod_cast quarters_le m e
  push_cast at *
  have hlow : (d : ℚ) * 10 ^ (lead - 16) ≤ (4 * m - quarters m e) * 2 ^ (e - 2) := by
    by_contra h
    exact hdown ⟨by linarith, by nlinarith, fun _ => ⟨by linarith, by nlinarith⟩⟩
  have hhigh : (4 * m + 2) * 2 ^ (e - 2) ≤ ((d : ℚ) + 1) * 10 ^ (lead - 16) := by
    by_contra h
    exact hup ⟨by nlinarith, by linarith, fun _ => ⟨by nlinarith, by linarith⟩⟩
  rw [hsplit] at hlead
  generalize (10 : ℚ) ^ (lead - 16) = step at *
  generalize (2 : ℚ) ^ (e - 2) = u at *
  -- No point of the grid lies in the interval, so a step is longer than the interval.
  have hstep' : (quarters m e + 2) * u ≤ step := by linarith
  have hwide : ((quarters m e : ℚ) + 2) * 10 ^ 16 ≤ 4 * m := by
    refine le_of_mul_le_mul_right ?_ hpos
    linarith
  have hwide' : (quarters m e + 2) * 10 ^ 16 ≤ 4 * m := by exact_mod_cast hwide
  have hlt := hc.lt
  unfold quarters at hwide'
  split at hwide'
  next hfull =>
    have := hfull.1
    simp only [leadingBit] at this
    omega
  next => omega

/-- The shortest decimal of a number is canonical and lies in the interval of the number. -/
theorem ofPositive_spec (hc : Canonical m e) :
    IsCanonical (ofPositive m e).1 (ofPositive m e).2 ∧
      Holds m e ((ofPositive m e).1 * 10 ^ (ofPositive m e).2) := by
  unfold ofPositive ratio
  dsimp only
  generalize hlead : leadingExponent (m * Nat.pow 2 e.toNat) (Nat.pow 2 (-e).toNat) = lead
  have hvalue : (10 : ℚ) ^ lead ≤ m * 2 ^ e := by
    have hpow := zpow_eq_div (b := 2) (by omega) e
    have hnum : 0 < m * Nat.pow 2 e.toNat := Nat.mul_pos hc.pos (by simp)
    have hden : 0 < Nat.pow 2 (-e).toNat := by simp
    have h := pow_leadingExponent_le hnum hden
    rw [hlead] at h
    refine h.trans (le_of_eq ?_)
    push_cast at hpow
    rw [hpow]
    simp only [Nat.pow_eq]
    push_cast
    ring
  cases hfound : (List.range 17).findSome? fun (k : Nat) =>
      ((Target.onGrid m e (lead - k)).choose).map fun d => canonical d (lead - k) with
  | none =>
    have hlast := List.findSome?_eq_none_iff.1 hfound 16 (by simp)
    exact absurd (Option.map_eq_none_iff.1 hlast) (choose_ne_none hc hvalue)
  | some r =>
    obtain ⟨k, -, hk⟩ := List.exists_of_findSome?_eq_some hfound
    obtain ⟨d, hd, rfl⟩ := Option.map_eq_some_iff.1 hk
    obtain ⟨hcanonical, hsame⟩ := canonical_spec d (lead - k)
    refine ⟨hcanonical, ?_⟩
    change Holds m e ((canonical d (lead - k)).1 * 10 ^ (canonical d (lead - k)).2)
    rw [hsame]
    exact (holds_iff hc.pos).1 (choose_eq_some hd)

end Shortest

end Guillotine
