import Guillotine.Calendar.TimestampReader
import Guillotine.Proofs.Calendar.Date

/-! Points in time read back from their texts. Each part of a text is read off the digits that were
written for it, up to the character behind; put together, the parts are the point in time again. -/
namespace Guillotine

/-! ### Padded numbers -/

namespace Fixed

variable {width n : Nat}

theorem toList_padded (width n : Nat) : (padded width n).toList =
    List.replicate (width - (Nat.toDigits 10 n).length) '0' ++ Nat.toDigits 10 n :=
  String.toList_ofList

theorem isDigit_of_mem_padded {c : Char} (hc : c ∈ (padded width n).toList) : c.isDigit = true := by
  rw [toList_padded, List.mem_append] at hc
  rcases hc with hc | hc
  · rw [List.eq_of_mem_replicate hc]
    rfl
  · exact Nat.isDigit_of_mem_toDigits (by decide) (by decide) hc

theorem ofDigitChars_padded (width n : Nat) :
    Nat.ofDigitChars 10 (padded width n).toList 0 = n := by
  rw [toList_padded, Nat.ofDigitChars_append, Nat.ofDigitChars_replicate_zero, Nat.mul_zero,
    Nat.ofDigitChars_ten_toDigits]

theorem length_padded (hwidth : 0 < width) (h : n < 10 ^ width) :
    (padded width n).toList.length = width := by
  have hle := (Nat.length_toDigits_le_iff (by decide) hwidth).2 h
  rw [toList_padded, List.length_append, List.length_replicate]
  omega

end Fixed

namespace Timestamp

open Fixed

variable {rest : List Char} {n width low high : Nat}

/-! ### Parts -/

theorem readDigits_append {ds : List Char} (h : ∀ c ∈ ds, c.isDigit = true) (rest : List Char) :
    readDigits ds.length (ds ++ rest) = some (Nat.ofDigitChars 10 ds 0, rest) := by
  unfold readDigits
  dsimp only
  rw [List.take_left, List.drop_left, if_pos ⟨rfl, List.all_eq_true.2 h⟩]
  rfl

theorem readDigits_padded (hwidth : 0 < width) (h : n < 10 ^ width) (rest : List Char) :
    readDigits width ((padded width n).toList ++ rest) = some (n, rest) := by
  have hread := readDigits_append
    (fun c (hc : c ∈ (padded width n).toList) => isDigit_of_mem_padded hc)
    rest
  rwa [length_padded hwidth h, ofDigitChars_padded] at hread

theorem readBounded_padded (hwidth : 0 < width) (h : n < 10 ^ width) (hlow : low ≤ n)
    (hhigh : n ≤ high) (rest : List Char) :
    readBounded width low high ((padded width n).toList ++ rest) = some (n, rest) := by
  unfold readBounded
  rw [readDigits_padded hwidth h]
  exact if_pos ⟨hlow, hhigh⟩

theorem readNext_padded {separator : Char} (h : n < 100) (hhigh : n ≤ high) :
    readNext true separator high (separator :: ((padded 2 n).toList ++ rest)) =
      some (some n, rest) := by
  have hread := readBounded_padded (by decide : 0 < 2) h (Nat.zero_le n) hhigh rest
  unfold readNext
  dsimp only
  rw [if_pos rfl, hread]
  rfl

theorem readYear_minus (cs : List Char) : readYear ('-' :: cs) =
    (readBounded 6 1 9999 cs).map fun (n, cs) => (-(n : Int), cs) :=
  rfl

theorem readYear_yearText {year : Int} (hlow : -9999 ≤ year) (hhigh : year ≤ 9999) :
    readYear ((yearText year).toList ++ rest) = some (year, rest) := by
  unfold yearText
  split
  next hneg =>
    have hread := readBounded_padded (by decide : 0 < 6) (by omega : year.natAbs < 10 ^ 6)
      (by omega : 1 ≤ year.natAbs) (by omega : year.natAbs ≤ 9999) rest
    have hyear : -(year.natAbs : Int) = year := by omega
    have hsign : "-".toList = ['-'] := rfl
    rw [String.toList_append, hsign, List.singleton_append, List.cons_append, readYear_minus, hread,
      Option.map_some]
    dsimp only
    rw [hyear]
  next hneg =>
    have hshort : year.natAbs < 10 ^ 4 := by omega
    have hread := readDigits_padded (by decide) hshort rest
    have hyear : (year.natAbs : Int) = year := by omega
    have hlength := length_padded (by decide) hshort
    have hdigit : ∀ c ∈ (padded 4 year.natAbs).toList, c.isDigit = true :=
      fun c hc => isDigit_of_mem_padded hc
    -- A year without a sign begins with a digit.
    generalize (padded 4 year.natAbs).toList = digits at hread hlength hdigit ⊢
    obtain ⟨c, cs, rfl⟩ := List.exists_cons_of_length_pos (hlength ▸ (by decide : 0 < 4))
    have hc := hdigit c List.mem_cons_self
    unfold readYear
    split
    next hcons =>
      obtain rfl := (List.cons.inj hcons).1
      cases hc
    next hcons =>
      obtain rfl := (List.cons.inj hcons).1
      cases hc
    next =>
      rw [hread, Option.map_some]
      dsimp only
      rw [hyear]

theorem skipDash_true (cs : List Char) : skipDash true ('-' :: cs) = some cs := rfl

theorem readDate_text {date : Date} (hvalid : date.isValid = true) (hlow : -9999 ≤ date.year)
    (hhigh : date.year ≤ 9999) :
    readDate ((yearText date.year).toList ++ '-' :: ((padded 2 date.month).toList ++
      '-' :: ((padded 2 date.day).toList ++ rest))) = some (date, rest) := by
  have hparts := hvalid
  simp only [Date.isValid, Bool.and_eq_true, decide_eq_true_eq] at hparts
  obtain ⟨⟨⟨hmonth, hmonths⟩, hday⟩, hdays⟩ := hparts
  have hlast : Date.daysInMonth date.year date.month ≤ 31 := by
    unfold Date.daysInMonth
    split_ifs <;> omega
  unfold readDate
  rw [readYear_yearText hlow hhigh]
  simp only [Option.bind_eq_bind, Option.bind_some, List.head?_cons, beq_self_eq_true,
    skipDash_true]
  rw [readBounded_padded (by decide) (by omega) hmonth hmonths]
  simp only [Option.bind_some, skipDash_true]
  rw [readBounded_padded (by decide) (by omega) hday (by omega)]
  exact if_pos hvalid

/-- Some digits are those that are left without the zeros at the end, and these zeros. -/
theorem exists_zeros (digits : List Char) : ∃ zeros,
    digits = (digits.reverse.dropWhile (· == '0')).reverse ++ List.replicate zeros '0' := by
  refine ⟨(digits.reverse.takeWhile (· == '0')).length, ?_⟩
  have hzeros : digits.reverse.takeWhile (· == '0') =
      List.replicate (digits.reverse.takeWhile (· == '0')).length '0' :=
    List.eq_replicate_of_mem fun c hc => by simpa using List.mem_takeWhile_imp hc
  have hjoin := congrArg List.reverse
    (List.takeWhile_append_dropWhile (p := (· == '0')) (l := digits.reverse))
  rw [List.reverse_append, List.reverse_reverse, hzeros, List.reverse_replicate] at hjoin
  exact hjoin.symm

/-- Nine characters at most are looked at, up to the first one that is not a digit. -/
theorem takeWhile_isDigit_take {ds : List Char} {zeros : Nat} (hds : ∀ c ∈ ds, c.isDigit = true)
    (hlength : ds.length + zeros = 9) (rest : List Char) :
    ((ds ++ 'Z' :: rest).take 9).takeWhile Char.isDigit = ds := by
  have hstop : (('Z' :: rest).take zeros).takeWhile Char.isDigit = [] := by
    cases zeros with
    | zero => rfl
    | succ k => rfl
  rw [List.take_append, List.take_of_length_le (by omega), show 9 - ds.length = zeros by omega,
    List.takeWhile_append_of_pos hds, hstop, List.append_nil]

/-- The decimal places of a text are what is left of nine digits without the zeros at the end. -/
theorem readFraction_fractionText (h : n < 10 ^ 9) :
    readFraction ((fractionText n).toList ++ 'Z' :: rest) = some (n, 'Z' :: rest) := by
  unfold fractionText
  split
  next hzero =>
    subst hzero
    rfl
  next hpos =>
    have hlength := length_padded (by decide) h
    have hvalue := ofDigitChars_padded 9 n
    have hdigit : ∀ c ∈ (padded 9 n).toList, c.isDigit = true :=
      fun c hc => isDigit_of_mem_padded hc
    dsimp only
    rw [String.toList_ofList]
    generalize (padded 9 n).toList = digits at hlength hvalue hdigit ⊢
    obtain ⟨zeros, hsplit⟩ := exists_zeros digits
    generalize (digits.reverse.dropWhile (· == '0')).reverse = kept at hsplit ⊢
    subst hsplit
    rw [Nat.ofDigitChars_append, Nat.ofDigitChars_replicate_zero] at hvalue
    rw [List.length_append, List.length_replicate] at hlength
    have hkept : ∀ c ∈ kept, c.isDigit = true := fun c hc => hdigit c (List.mem_append_left _ hc)
    have hne : kept.length ≠ 0 := by
      intro hnil
      rw [List.length_eq_zero_iff.1 hnil] at hvalue
      exact hpos (hvalue.symm.trans (Nat.mul_zero _))
    unfold readFraction
    dsimp only [List.cons_append]
    rw [if_pos (.inl rfl), takeWhile_isDigit_take hkept hlength, if_neg hne,
      readDigits_append hkept, show 9 - kept.length = zeros by omega]
    show some (_ * 10 ^ zeros, _) = _
    rw [Nat.mul_comm, hvalue]

theorem readTime_text {hour minute second : Nat} (hhour : hour < 24) (hminute : minute < 60)
    (hsecond : second < 60) (hn : n < 10 ^ 9) :
    readTime ((padded 2 hour).toList ++ ':' :: ((padded 2 minute).toList ++
      ':' :: ((padded 2 second).toList ++ ((fractionText n).toList ++ 'Z' :: rest)))) =
        some ((hour * 3600 + minute * 60 + second) * Duration.nanosPerSecond + n, 'Z' :: rest) := by
  unfold readTime
  rw [readBounded_padded (by decide) (by omega) (Nat.zero_le _) (by omega)]
  simp only [Option.bind_eq_bind, Option.bind_some, List.head?_cons, beq_self_eq_true]
  rw [readNext_padded (by omega) (by omega)]
  simp only [Option.bind_some]
  rw [readNext_padded (by omega) (by omega)]
  simp only [Option.bind_some]
  rw [readFraction_fractionText hn, Option.bind_some, Nat.min_eq_left (by omega)]

/-- One character of a class, with nothing else to be skipped. -/
theorem skipWord_one {first : Char → Bool} {c : Char} (h : first c = true) (cs : List Char) :
    skipWord first (fun _ => false) (c :: cs) = some cs := by
  have hdrop : cs.dropWhile (fun _ => false) = cs := by cases cs <;> rfl
  unfold skipWord
  dsimp only
  rw [if_pos h, hdrop]

/-! ### Whole texts -/

/-- The text of a point in time, part by part. -/
theorem toList_text (t : Timestamp) : t.text.toList =
    let seconds := t.nanoseconds / nanosPerSecond
    let d := Date.ofDays (seconds / 86400)
    let s := (seconds % 86400).toNat
    (yearText d.year).toList ++ '-' :: ((padded 2 d.month).toList ++
      '-' :: ((padded 2 d.day).toList ++ 'T' :: ((padded 2 (s / 3600)).toList ++
      ':' :: ((padded 2 (s / 60 % 60)).toList ++ ':' :: ((padded 2 (s % 60)).toList ++
      ((fractionText (t.nanoseconds % nanosPerSecond).toNat).toList ++ 'Z' :: [])))))) := by
  have hdash : "-".toList = ['-'] := rfl
  have hcolon : ":".toList = [':'] := rfl
  have htime : "T".toList = ['T'] := rfl
  have hzone : "Z".toList = ['Z'] := rfl
  unfold text
  simp only [String.toList_join, List.flatMap_cons, List.flatMap_nil, hdash, hcolon, htime, hzone,
    List.singleton_append, List.append_nil]

theorem inRange_iff {t : Timestamp} : t.inRange = true ↔
    -377705023201000000000 ≤ t.nanoseconds ∧ t.nanoseconds ≤ 253402207200999999999 := by
  have hfirst : first.nanoseconds = -377705023201000000000 := by decide +kernel
  have hlast : last.nanoseconds = 253402207200999999999 := by decide +kernel
  simp only [inRange, Bool.and_eq_true, decide_eq_true_eq, hfirst, hlast]

/-- The seconds of a point in time are few enough to be counted exactly. -/
theorem natAbs_seconds_lt {t : Timestamp} (h : t.inRange = true) : t.seconds.natAbs < 2 ^ 53 := by
  rw [inRange_iff] at h
  rw [seconds, Int.natAbs_tdiv]
  exact (Nat.div_le_div_right (show _ ≤ 377705023201000000000 by omega)).trans_lt (by decide)

/-- The year of a point in time has at most four digits. -/
theorem year_of_inRange {t : Timestamp} (h : t.inRange = true) :
    -9999 ≤ (Date.ofDays (t.nanoseconds / nanosPerSecond / 86400)).year ∧
      (Date.ofDays (t.nanoseconds / nanosPerSecond / 86400)).year ≤ 9999 := by
  obtain ⟨-, -, hlow, hhigh⟩ := Date.ofDays_spec (t.nanoseconds / nanosPerSecond / 86400)
  have hstart : Date.daysBeforeYear (-9999) = -3652425 := by decide +kernel
  have hend : Date.daysBeforeYear 10000 = 3652059 := by decide +kernel
  have hepoch : Date.daysBeforeYear 1970 = 719162 := by decide +kernel
  rw [inRange_iff] at h
  simp only [nanosPerSecond] at *
  constructor
  · by_contra hyear
    have := Date.daysBeforeYear_mono (z := -9999)
      (show (Date.ofDays (t.nanoseconds / 1000000000 / 86400)).year + 1 ≤ -9999 by omega)
    omega
  · by_contra hyear
    have := Date.daysBeforeYear_mono (y := 10000)
      (show 10000 ≤ (Date.ofDays (t.nanoseconds / 1000000000 / 86400)).year by omega)
    omega

/-- A point in time is read back from its text. -/
theorem ofText?_text {t : Timestamp} (h : t.inRange = true) : ofText? t.text = some t := by
  obtain ⟨hvalid, hdays, -⟩ := Date.ofDays_spec (t.nanoseconds / nanosPerSecond / 86400)
  obtain ⟨hlow, hhigh⟩ := year_of_inRange h
  have hseconds : 0 ≤ t.nanoseconds / nanosPerSecond % 86400 ∧
      t.nanoseconds / nanosPerSecond % 86400 < 86400 := by omega
  have hfraction : 0 ≤ t.nanoseconds % nanosPerSecond ∧
      t.nanoseconds % nanosPerSecond < 1000000000 := by
    simp only [nanosPerSecond]
    omega
  have hsplit : (t.nanoseconds / nanosPerSecond / 86400 * 86400 +
      t.nanoseconds / nanosPerSecond % 86400) * nanosPerSecond + t.nanoseconds % nanosPerSecond =
        t.nanoseconds := by
    rw [Int.ediv_mul_add_emod, Int.ediv_mul_add_emod]
  unfold ofText?
  rw [toList_text]
  dsimp only
  generalize Date.ofDays (t.nanoseconds / nanosPerSecond / 86400) = date at *
  generalize t.nanoseconds / nanosPerSecond / 86400 = days at *
  generalize hs : t.nanoseconds / nanosPerSecond % 86400 = s at *
  generalize hn : t.nanoseconds % nanosPerSecond = n at *
  obtain ⟨s, rfl⟩ := Int.eq_ofNat_of_zero_le hseconds.1
  obtain ⟨n, rfl⟩ := Int.eq_ofNat_of_zero_le hfraction.1
  rw [Int.toNat_natCast, Int.toNat_natCast, readDate_text hvalid hlow hhigh]
  simp only [Option.bind_eq_bind, Option.bind_some]
  rw [skipWord_one (by decide), Option.bind_some,
    readTime_text (by omega) (by omega) (by omega) (by omega)]
  have hzone : readOffset ['Z'] = some (0, []) := rfl
  have hend : skipAnnotations (0 + 1) true [] = some [] := rfl
  simp only [Option.bind_some, hzone, List.length_nil, hend, List.isEmpty_nil, if_true]
  have htime : (⟨(date.toDays * 86400 - 0) * nanosPerSecond +
      (((s / 3600 * 3600 + s / 60 % 60 * 60 + s % 60) * Duration.nanosPerSecond + n : Nat) : Int)⟩ :
        Timestamp) = t := by
    have hday : s / 3600 * 3600 + s / 60 % 60 * 60 + s % 60 = s := by omega
    obtain ⟨nanoseconds⟩ := t
    rw [hday, hdays, mk.injEq]
    refine Eq.trans ?_ hsplit
    simp only [nanosPerSecond, Duration.nanosPerSecond]
    push_cast
    ring
  rw [htime, if_pos h]

end Timestamp

end Guillotine
