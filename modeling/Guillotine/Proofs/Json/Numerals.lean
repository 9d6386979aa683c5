import Mathlib.Tactic.IntervalCases
import Guillotine.Json.Lexer
import Guillotine.Json.Writer
import Guillotine.Proofs.Decimal.Shortest

/-! Numbers are read as they were written. A number is read digit by digit, so what a list of digits
does to each state of the reader is said first; then come the four layouts of a number: an integer,
a decimal with its point behind, within or before its digits, and one with an exponent. -/
namespace Guillotine

namespace Shortest

variable {m m' : Nat} {e e' : Int}

/-- A canonical decimal is determined by its value. -/
theorem IsCanonical.unique (h : IsCanonical m e) (h' : IsCanonical m' e')
    (hv : (m : ℚ) * 10 ^ e = m' * 10 ^ e') : m = m' ∧ e = e' := by
  have hle : ∀ {m m' : Nat} {e e' : Int}, IsCanonical m e → IsCanonical m' e' →
      (m : ℚ) * 10 ^ e = m' * 10 ^ e' → e ≤ e' → m = m' ∧ e = e' := by
    intro m m' e e' h h' hv hee
    obtain ⟨k, hk⟩ := Int.eq_ofNat_of_zero_le (Int.sub_nonneg.2 hee)
    have hpow : (10 : ℚ) ^ e' = 10 ^ k * 10 ^ e := by
      rw [← zpow_natCast, ← zpow_add₀ (by norm_num)]
      congr 1
      omega
    have hten : (0 : ℚ) < 10 ^ e := by positivity
    rw [hpow, ← mul_assoc] at hv
    have hmul : m = m' * 10 ^ k := by exact_mod_cast mul_right_cancel₀ hten.ne' hv
    rcases Nat.eq_zero_or_pos k with rfl | hpos
    · exact ⟨by simpa using hmul, by omega⟩
    · have hmod : m % 10 = 0 := by
        obtain ⟨j, rfl⟩ := Nat.exists_eq_add_of_lt hpos
        rw [hmul, zero_add, Nat.pow_succ, ← Nat.mul_assoc, Nat.mul_mod_left]
      obtain ⟨rfl, rfl⟩ := h.resolve_right (by omega)
      have hzero : m' = 0 := by
        rcases Nat.mul_eq_zero.1 hmul.symm with h | h
        · exact h
        · exact absurd h (by positivity)
      obtain ⟨-, rfl⟩ := h'.resolve_right (by omega)
      exact ⟨hzero.symm, rfl⟩
  rcases Int.le_total e e' with hee | hee
  · exact hle h h' hv hee
  · obtain ⟨rfl, rfl⟩ := hle h' h hv.symm hee
    exact ⟨rfl, rfl⟩

theorem canonical_eq (h : IsCanonical m e) (hv : (m : ℚ) * 10 ^ e = m' * 10 ^ e') :
    canonical m' e' = (m, e) := by
  obtain ⟨hc, hvalue⟩ := canonical_spec m' e'
  obtain ⟨h1, h2⟩ := hc.unique h (hvalue.trans hv.symm)
  exact Prod.ext h1 h2

end Shortest

/-! ### Digits -/

namespace Lexer

theorem digit?_eq {c : Char} (h : c.isDigit = true) : digit? c = some (c.toNat - '0'.toNat) := by
  simp only [Char.isDigit, Bool.and_eq_true, decide_eq_true_eq] at h
  exact if_pos ⟨h.1, h.2⟩

namespace NumberState

/-- Go on with some characters. -/
def read (s : NumberState) (cs : List Char) : Option NumberState := cs.foldlM step s

variable {s : NumberState} {cs ds : List Char} {negative : Bool} {n p e : Nat} {below : Bool}

@[simp] theorem read_nil : s.read [] = some s := rfl

theorem read_cons {c : Char} : s.read (c :: cs) = s.step c >>= fun t => t.read cs :=
  List.foldlM_cons

theorem read_append : s.read (cs ++ ds) = s.read cs >>= fun t => t.read ds := by
  unfold read
  rw [List.foldlM_append]

theorem step_digit {c : Char} (h : c.isDigit = true) :
    s.step c = s.digit (c.toNat - '0'.toNat) := by
  rw [step, digit?_eq h]

theorem read_whole (h : ∀ c ∈ ds, c.isDigit = true) :
    (whole negative n).read ds = some (whole negative (Nat.ofDigitChars 10 ds n)) := by
  induction ds generalizing n with
  | nil => simp
  | cons c ds ih =>
    rw [List.forall_mem_cons] at h
    rw [read_cons, step_digit h.1, Nat.ofDigitChars_cons]
    exact ih h.2

theorem read_fraction (h : ∀ c ∈ ds, c.isDigit = true) :
    (fraction negative n p).read ds =
      some (fraction negative (Nat.ofDigitChars 10 ds n) (p + ds.length)) := by
  induction ds generalizing n p with
  | nil => simp
  | cons c ds ih =>
    rw [List.forall_mem_cons] at h
    rw [read_cons, step_digit h.1, Nat.ofDigitChars_cons, List.length_cons, Nat.add_comm ds.length,
      ← Nat.add_assoc]
    exact ih h.2

theorem read_exponent (h : ∀ c ∈ ds, c.isDigit = true) :
    (exponent negative n p below e).read ds =
      some (exponent negative n p below (Nat.ofDigitChars 10 ds e)) := by
  induction ds generalizing e with
  | nil => simp
  | cons c ds ih =>
    rw [List.forall_mem_cons] at h
    rw [read_cons, step_digit h.1, Nat.ofDigitChars_cons]
    exact ih h.2

/-- A fraction begins with its first digit. -/
theorem read_point (h : ∀ c ∈ ds, c.isDigit = true) (hne : ds ≠ []) :
    (point negative n).read ds =
      some (fraction negative (Nat.ofDigitChars 10 ds n) ds.length) := by
  cases ds with
  | nil => exact absurd rfl hne
  | cons c ds =>
    rw [List.forall_mem_cons] at h
    rw [read_cons, step_digit h.1, Nat.ofDigitChars_cons, List.length_cons, Nat.add_comm ds.length]
    exact read_fraction h.2

/-- An exponent begins with its first digit. -/
theorem read_markSign (h : ∀ c ∈ ds, c.isDigit = true) (hne : ds ≠ []) :
    (markSign negative n p below).read ds =
      some (exponent negative n p below (Nat.ofDigitChars 10 ds 0)) := by
  cases ds with
  | nil => exact absurd rfl hne
  | cons c ds =>
    rw [List.forall_mem_cons] at h
    rw [read_cons, step_digit h.1, Nat.ofDigitChars_cons, Nat.mul_zero, Nat.zero_add]
    exact read_exponent h.2

end NumberState

end Lexer

/-! ### The layouts of a number -/

/-- Whether a number is one that is read somewhere: a decimal has to be canonical. -/
def Numeral.Proper : Numeral → Prop
  | .integer _ => True
  | .decimal _ m e => Shortest.IsCanonical m e

namespace Numeral

open Lexer Lexer.NumberState Shortest

variable {m n : Nat} {e : Int} {negative : Bool}

theorem isDigit_of_mem_digits {c : Char} (h : c ∈ digits n) : c.isDigit = true :=
  Nat.isDigit_of_mem_toDigits (by omega) (by omega) h

/-- The digits of a positive number begin with one that is not zero. -/
theorem digits_eq_cons (hn : 0 < n) : ∃ d ds, 0 < d ∧ d < 10 ∧
    digits n = Nat.digitChar d :: ds ∧ (∀ c ∈ ds, c.isDigit = true) ∧
    Nat.ofDigitChars 10 ds d = n := by
  have hfirst : ∃ d ds, 0 < d ∧ d < 10 ∧ digits n = Nat.digitChar d :: ds := by
    unfold digits
    induction n using Nat.strongRecOn with
    | _ n ih =>
      by_cases hsmall : n < 10
      · exact ⟨n, [], hn, hsmall, Nat.toDigits_of_lt_base hsmall⟩
      · obtain ⟨d, ds, hpos, hlt, hds⟩ := ih (n / 10) (by omega) (by omega)
        refine ⟨d, ds ++ [Nat.digitChar (n % 10)], hpos, hlt, ?_⟩
        rw [Nat.toDigits_of_base_le (by omega) (by omega), hds]
        rfl
  obtain ⟨d, ds, hpos, hlt, hds⟩ := hfirst
  refine ⟨d, ds, hpos, hlt, hds, fun c hc => ?_, ?_⟩
  · exact isDigit_of_mem_digits (n := n) (by rw [hds]; exact List.mem_cons_of_mem _ hc)
  · have hvalue : Nat.ofDigitChars 10 (digits n) 0 = n := Nat.ofDigitChars_ten_toDigits
    rw [hds, Nat.ofDigitChars_cons_digitChar_of_lt_ten hlt] at hvalue
    simpa using hvalue

/-- The state after the first digit of a number. -/
def leading (negative : Bool) (d : Nat) : NumberState :=
  if d = 0 then .zero negative else .whole negative d

theorem leading_of_pos {d : Nat} (hd : 0 < d) : leading negative d = .whole negative d :=
  if_neg hd.ne'

/-- Whether a number is read off some characters, its sign apart. -/
def Spells (negative : Bool) (body : List Char) (v : Numeral) : Prop :=
  ∃ d rest s, d < 10 ∧ body = Nat.digitChar d :: rest ∧ (leading negative d).read rest = some s ∧
    s.finish = some v

theorem spells_integer (h : negative = true → 0 < n) :
    Spells negative (digits n) (.integer (if negative then -n else n)) := by
  rcases Nat.eq_zero_or_pos n with rfl | hn
  · cases negative with
    | false => exact ⟨0, [], .zero false, by omega, rfl, rfl, rfl⟩
    | true => exact absurd (h rfl) (Nat.lt_irrefl 0)
  · obtain ⟨d, ds, hpos, hlt, hds, hdigits, hvalue⟩ := digits_eq_cons hn
    refine ⟨d, ds, .whole negative n, hlt, hds, ?_, rfl⟩
    rw [leading_of_pos hpos, read_whole hdigits, hvalue]

theorem decimal_eq (h : IsCanonical m e) {m' : Nat} {e' : Int}
    (hv : (m : ℚ) * 10 ^ e = m' * 10 ^ e') :
    NumberState.decimal negative m' e' = .decimal negative m e := by
  rw [NumberState.decimal, canonical_eq h hv]

/-- A decimal whose point stands behind its digits. -/
theorem spells_behind (h : IsCanonical m e) (he : 0 ≤ e) :
    Spells negative (digits m ++ List.replicate e.toNat '0' ++ ['.', '0'])
      (.decimal negative m e) := by
  obtain ⟨k, rfl⟩ := Int.eq_ofNat_of_zero_le he
  have hvalue : (m : ℚ) * 10 ^ (k : Int) =
      ((10 * (10 ^ k * m) : ℕ) : ℚ) * 10 ^ (-(1 : ℕ) : Int) := by
    rw [zpow_natCast, zpow_neg]
    push_cast
    field_simp
  rcases Nat.eq_zero_or_pos m with rfl | hm
  · obtain ⟨-, hk⟩ := h.resolve_right (by omega)
    obtain rfl : k = 0 := by omega
    refine ⟨0, ['.', '0'], .fraction negative 0 1, by omega, rfl, rfl, ?_⟩
    exact congrArg some (decimal_eq h hvalue)
  · obtain ⟨d, ds, hpos, hlt, hds, hdigits, hread⟩ := digits_eq_cons hm
    refine ⟨d, ds ++ List.replicate k '0' ++ ['.', '0'], .fraction negative (10 * (10 ^ k * m)) 1,
      hlt, by rw [hds]; rfl, ?_, congrArg some (decimal_eq h hvalue)⟩
    have hzeros : ∀ c ∈ ds ++ List.replicate k '0', c.isDigit = true := by
      rw [List.forall_mem_append]
      refine ⟨hdigits, fun c hc => ?_⟩
      rw [(List.mem_replicate.1 hc).2]
      rfl
    rw [leading_of_pos hpos, read_append, read_whole hzeros, Nat.ofDigitChars_append, hread,
      Nat.ofDigitChars_replicate_zero]
    rfl

/-- A decimal whose point stands within its digits. -/
theorem spells_within (h : IsCanonical m e) (hm : 0 < m) {k j : Nat} (hj : 0 < j)
    (hlength : (digits m).length = k + 1 + j) (he : e = -(j : Int)) :
    Spells negative ((digits m).take (k + 1) ++ '.' :: (digits m).drop (k + 1))
      (.decimal negative m e) := by
  obtain ⟨d, ds, hpos, hlt, hds, hdigits, hread⟩ := digits_eq_cons hm
  rw [hds, List.length_cons] at hlength
  have hdrop : (ds.drop k).length = j := by
    rw [List.length_drop]
    omega
  refine ⟨d, ds.take k ++ '.' :: ds.drop k, .fraction negative m j, hlt, by rw [hds]; rfl, ?_, ?_⟩
  · have hne : ds.drop k ≠ [] := by
      rw [← List.length_pos_iff, hdrop]
      exact hj
    have hjoin : Nat.ofDigitChars 10 (ds.drop k) (Nat.ofDigitChars 10 (ds.take k) d) = m := by
      rw [← Nat.ofDigitChars_append, List.take_append_drop, hread]
    rw [leading_of_pos hpos, read_append,
      read_whole fun c hc => hdigits c (List.mem_of_mem_take hc)]
    change (point negative _).read _ = _
    rw [read_point (fun c hc => hdigits c (List.mem_of_mem_drop hc)) hne, hjoin, hdrop]
  · subst he
    exact congrArg some (decimal_eq h rfl)

/-- A decimal whose point stands before its digits. -/
theorem spells_before (h : IsCanonical m e) {k : Nat}
    (he : e = -((k + (digits m).length : ℕ) : Int)) :
    Spells negative ('0' :: '.' :: List.replicate k '0' ++ digits m)
      (.decimal negative m e) := by
  have hdigits : ∀ c ∈ List.replicate k '0' ++ digits m, c.isDigit = true := by
    rw [List.forall_mem_append]
    refine ⟨fun c hc => ?_, fun c hc => isDigit_of_mem_digits hc⟩
    rw [(List.mem_replicate.1 hc).2]
    rfl
  have hvalue : Nat.ofDigitChars 10 (List.replicate k '0' ++ digits m) 0 = m := by
    rw [Nat.ofDigitChars_append, Nat.ofDigitChars_replicate_zero, Nat.mul_zero]
    exact Nat.ofDigitChars_ten_toDigits
  refine ⟨0, '.' :: (List.replicate k '0' ++ digits m),
    .fraction negative m (k + (digits m).length), by omega, rfl, ?_, ?_⟩
  · change (point negative 0).read _ = _
    rw [read_point hdigits (by simp [digits]), hvalue, List.length_append, List.length_replicate]
  · subst he
    exact congrArg some (decimal_eq h rfl)

/-- The part of a decimal from the mark of its exponent on. -/
theorem read_mark (negative : Bool) (n p : Nat) (lead : Int) :
    (mark negative n p).read ((if lead < 0 then '-' else '+') :: digits lead.natAbs) =
      some (.exponent negative n p (decide (lead < 0)) lead.natAbs) := by
  have hstep : (mark negative n p).step (if lead < 0 then '-' else '+') =
      some (.markSign negative n p (decide (lead < 0))) := by
    by_cases hlead : lead < 0
    · rw [if_pos hlead, decide_eq_true hlead]
      rfl
    · rw [if_neg hlead, decide_eq_false hlead]
      rfl
  have hvalue : Nat.ofDigitChars 10 (digits lead.natAbs) 0 = lead.natAbs :=
    Nat.ofDigitChars_ten_toDigits
  rw [read_cons, hstep]
  change (markSign negative n p _).read _ = _
  rw [read_markSign (fun c hc => isDigit_of_mem_digits hc) (by simp [digits]), hvalue]

theorem finish_exponent (negative : Bool) (h : IsCanonical m e) {p : Nat} {lead : Int}
    (he : e = lead - p) :
    (NumberState.exponent negative m p (decide (lead < 0)) lead.natAbs).finish =
      some (.decimal negative m e) := by
  have hlead : (if decide (lead < 0) = true then -(lead.natAbs : Int) else lead.natAbs) = lead := by
    split
    next hneg =>
      rw [decide_eq_true_eq] at hneg
      omega
    next hneg =>
      rw [decide_eq_true_eq] at hneg
      omega
  change some (NumberState.decimal negative m (_ - p)) = _
  rw [hlead, decimal_eq h]
  rw [he]

/-- A decimal with an exponent. -/
theorem spells_scientific (h : IsCanonical m e) (hm : 0 < m) :
    Spells negative (scientific (digits m) (e + (digits m).length - 1))
      (.decimal negative m e) := by
  obtain ⟨d, ds, hpos, hlt, hds, hdigits, hread⟩ := digits_eq_cons hm
  generalize hlead : e + ((digits m).length : Int) - 1 = lead
  rw [hds, List.length_cons] at hlead
  have htail := read_mark negative m ds.length lead
  have hexponent : e = lead - ds.length := by
    push_cast at hlead
    omega
  have hfinish := finish_exponent negative h hexponent
  rw [hds]
  cases ds with
  | nil =>
    obtain rfl : d = m := hread
    refine ⟨d, 'e' :: (if lead < 0 then '-' else '+') :: digits lead.natAbs, _, hlt, rfl, ?_,
      hfinish⟩
    rw [leading_of_pos hpos]
    exact htail
  | cons c ds =>
    refine ⟨d, '.' :: (c :: ds) ++ 'e' :: (if lead < 0 then '-' else '+') :: digits lead.natAbs, _,
      hlt, rfl, ?_, hfinish⟩
    rw [leading_of_pos hpos]
    change (point negative d).read ((c :: ds) ++ _) = _
    rw [read_append, read_point hdigits (List.cons_ne_nil c ds), hread]
    exact htail

/-- A decimal is read off its digits, wherever its point stands. -/
theorem spells_positional (h : IsCanonical m e) :
    Spells negative (positional (digits m) e) (.decimal negative m e) := by
  unfold positional
  split
  next he => exact spells_behind h he
  next he =>
    dsimp only
    split
    next hwhole =>
      have hm : 0 < m := by
        rcases Nat.eq_zero_or_pos m with rfl | hm
        · obtain ⟨-, rfl⟩ := h.resolve_right (by omega)
          omega
        · exact hm
      obtain ⟨k, hk⟩ : ∃ k : Nat, ((digits m).length : Int) + e = (k + 1 : ℕ) :=
        ⟨(((digits m).length : Int) + e - 1).toNat, by omega⟩
      rw [hk, Int.toNat_natCast]
      exact spells_within h hm (j := (-e).toNat) (by omega) (by omega) (by omega)
    next hwhole => exact spells_before h (by omega)

end Numeral

/-! ### The whole number -/

namespace Lexer

open Numeral

variable {ts : List Token} {n : Numeral}

/-- While a number goes on, the tokens before it stay. -/
theorem foldlM_number {s t : NumberState} {cs : List Char} (h : s.read cs = some t) :
    (cs.map some).foldlM step ⟨.number s, ts⟩ = some ⟨.number t, ts⟩ := by
  induction cs generalizing s with
  | nil =>
    obtain rfl := Option.some.inj h
    rfl
  | cons c cs ih =>
    rw [NumberState.read_cons] at h
    obtain ⟨u, hu, h⟩ := Option.bind_eq_some_iff.1 h
    rw [List.map_cons, List.foldlM_cons]
    simp only [step, hu]
    exact ih h

theorem stepBetween_digitChar {d : Nat} (hd : d < 10) :
    stepBetween ts (Nat.digitChar d) = some ⟨.number (leading false d), ts⟩ := by
  interval_cases d <;> rfl

theorem step_minus_digitChar {d : Nat} (hd : d < 10) :
    NumberState.minus.step (Nat.digitChar d) = some (leading true d) := by
  interval_cases d <;> rfl

/-- A number stands at the end of what is read. -/
theorem foldlM_signed (ts : List Token) {negative : Bool} {body : List Char}
    (h : Spells negative body n) :
    ∃ s, ((if negative then '-' :: body else body).map some).foldlM step ⟨.between, ts⟩ =
      some ⟨.number s, ts⟩ ∧ s.finish = some n := by
  obtain ⟨d, rest, s, hd, rfl, hread, hfinish⟩ := h
  refine ⟨s, ?_, hfinish⟩
  cases negative with
  | false =>
    change (some (Nat.digitChar d) :: rest.map some).foldlM step ⟨.between, ts⟩ = _
    rw [List.foldlM_cons]
    change stepBetween ts (Nat.digitChar d) >>= _ = _
    rw [stepBetween_digitChar hd]
    exact foldlM_number hread
  | true =>
    have hminus : NumberState.minus.read (Nat.digitChar d :: rest) = some s := by
      rw [NumberState.read_cons, step_minus_digitChar hd]
      exact hread
    exact foldlM_number hminus

/-- A number is read as it was written. -/
theorem foldlM_numeral (ts : List Token) (hn : n.Proper) :
    ∃ s, (n.write.map some).foldlM step ⟨.between, ts⟩ = some ⟨.number s, ts⟩ ∧
      s.finish = some n := by
  cases n with
  | integer k =>
    have hneg : decide (k < 0) = true → 0 < k.natAbs := by
      rw [decide_eq_true_eq]
      omega
    have hspells := spells_integer hneg
    have hvalue : (if decide (k < 0) = true then -(k.natAbs : Int) else k.natAbs) = k := by
      split
      next hneg =>
        rw [decide_eq_true_eq] at hneg
        omega
      next hneg =>
        rw [decide_eq_true_eq] at hneg
        omega
    rw [hvalue] at hspells
    have h := foldlM_signed ts hspells
    simp only [decide_eq_true_eq] at h
    exact h
  | decimal negative m e =>
    refine foldlM_signed ts ?_
    split
    next => exact spells_positional hn
    next hlead =>
      refine spells_scientific hn ?_
      -- Zero is always written with a point.
      rw [Nat.pos_iff_ne_zero]
      rintro rfl
      obtain ⟨-, rfl⟩ := hn.resolve_right (by omega)
      exact hlead (by decide)

end Lexer

end Guillotine
