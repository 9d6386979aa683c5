import Mathlib
import Guillotine.Files.Path

/-! Paths below a folder. The names along such a path are those along the path of the folder and the
name of what is below, however the path of the folder ends. -/
namespace Guillotine

namespace Path

variable {folder name stem ending : String}

/-! ### Names along a path -/

section SplitOn

open String (utf8Len utf8Len_append utf8Len_cons utf8Len_nil)

/-- Splitting goes on where `m` was read since the last slash and `r` is left to be read. -/
theorem splitOnAux_slash (l m r : List Char) (parts : List String) :
    (String.ofList (l ++ m ++ r)).splitOnAux "/" ⟨utf8Len l⟩ ⟨utf8Len l + utf8Len m⟩ 0 parts =
      parts.reverse ++ (List.splitOnPPrepend (· == '/') r m.reverse).map String.ofList := by
  induction r generalizing l m parts with
  | nil =>
    have hend := String.atEnd_of_valid (l ++ m) []
    rw [utf8Len_append] at hend
    rw [String.splitOnAux.eq_1, if_pos (hend.2 rfl)]
    simp only [String.extract_of_valid l m []]
    simp
  | cons c r ih =>
    have hend := String.atEnd_of_valid (l ++ m) (c :: r)
    have hget := String.get_of_valid (l ++ m) (c :: r)
    have hnext := String.next_of_valid (l ++ m) c r
    have hslash : String.Pos.Raw.get "/" 0 = '/' := by decide +kernel
    have hone : String.Pos.Raw.next "/" 0 = ⟨1⟩ := by decide +kernel
    have hlast : String.Pos.Raw.atEnd "/" ⟨1⟩ = true := by decide +kernel
    rw [utf8Len_append] at hend hget hnext
    rw [String.splitOnAux.eq_1, if_neg (hend.not.2 (List.cons_ne_nil c r)), hslash, hone]
    simp only [hget, hnext, List.headD_cons, hlast, if_true]
    by_cases hc : c = '/'
    · subst hc
      have hrest := ih (l ++ m ++ ['/']) [] (String.ofList m :: parts)
      have hback : String.Pos.Raw.unoffsetBy ⟨utf8Len l + utf8Len m + '/'.utf8Size⟩ ⟨1⟩ =
          ⟨utf8Len l + utf8Len m⟩ := rfl
      have hpart : utf8Len (l ++ m ++ ['/']) = utf8Len l + utf8Len m + '/'.utf8Size := by
        simp [Nat.add_assoc]
      rw [List.append_nil, hpart, utf8Len_nil, Nat.add_zero, List.append_assoc,
        List.singleton_append] at hrest
      rw [if_pos (beq_self_eq_true _), hback, String.extract_of_valid l m ('/' :: r), hrest]
      simp [List.splitOnPPrepend_cons_eq_if]
    · have hrest := ih l (m ++ [c]) parts
      have hback : String.Pos.Raw.unoffsetBy ⟨utf8Len l + utf8Len m⟩ 0 =
          ⟨utf8Len l + utf8Len m⟩ := rfl
      rw [utf8Len_append, utf8Len_cons, utf8Len_nil, Nat.zero_add, List.append_assoc l,
        List.append_assoc m, List.singleton_append, ← List.append_assoc l, ← Nat.add_assoc] at hrest
      rw [if_neg (by simpa using hc), hback, hnext, hrest]
      simp [List.splitOnPPrepend_cons_eq_if, hc]

/-- The names along a path are what stands between its slashes. -/
theorem splitOn_slash (path : String) :
    path.splitOn "/" = (path.toList.splitOn '/').map String.ofList := by
  have h := splitOnAux_slash [] [] path.toList []
  rw [List.append_nil, List.nil_append, String.ofList_toList] at h
  have hsep : ("/" == "") = false := by decide
  rw [String.splitOn, hsep, if_neg Bool.false_ne_true, List.splitOn_eq_splitOnP,
    List.splitOnP_eq_splitOnPPrepend]
  exact h

end SplitOn

/-- A name that stands for itself in any folder. -/
structure Plain (name : String) : Prop where
  no_slash : '/' ∉ name.toList
  no_zero : '\x00' ∉ name.toList
  ne_empty : name ≠ ""
  ne_dot : name ≠ "."
  ne_dots : name ≠ ".."
  short : name.utf8ByteSize ≤ 255

instance (name : String) : Decidable (Plain name) :=
  decidable_of_iff
    ('/' ∉ name.toList ∧ '\x00' ∉ name.toList ∧ name ≠ "" ∧ name ≠ "." ∧ name ≠ ".." ∧
      name.utf8ByteSize ≤ 255)
    ⟨fun ⟨hslash, hzero, hempty, hdot, hdots, hshort⟩ =>
        ⟨hslash, hzero, hempty, hdot, hdots, hshort⟩,
      fun h => ⟨h.no_slash, h.no_zero, h.ne_empty, h.ne_dot, h.ne_dots, h.short⟩⟩

/-- A name that is a single step along a path. -/
structure Single (name : String) : Prop where
  no_slash : '/' ∉ name.toList
  ne_empty : name ≠ ""
  ne_dot : name ≠ "."
  ne_dots : name ≠ ".."

theorem Plain.single (h : Plain name) : Single name := ⟨h.no_slash, h.ne_empty, h.ne_dot, h.ne_dots⟩

theorem splitOn_of_no_slash (h : '/' ∉ name.toList) : name.splitOn "/" = [name] := by
  rw [splitOn_slash, List.splitOn_eq_singleton h, List.map_singleton, String.ofList_toList]

theorem startsWith_slash : folder.startsWith "/" = true ↔ ['/'] <+: folder.toList :=
  String.startsWith_string_iff

theorem endsWith_slash : folder.endsWith "/" = true ↔ ['/'] <:+ folder.toList := by
  rw [← String.endsWith_toSlice, String.Slice.endsWith_string_iff, String.copy_toSlice]
  rfl

theorem Single.startsWith_slash (h : Single name) : name.startsWith "/" = false := by
  rw [← Bool.not_eq_true, Path.startsWith_slash]
  rintro ⟨rest, hrest⟩
  exact h.no_slash (hrest ▸ List.mem_cons_self)

theorem Single.join_eq (h : Single name) (folder : String) : join folder name =
    if folder = "" ∨ folder.endsWith "/" then folder ++ name else folder ++ "/" ++ name :=
  if_neg (Bool.not_eq_true _ ▸ h.startsWith_slash)

/-- A path below a folder, in characters. -/
theorem toList_join (folder : String) (h : Single name) : (join folder name).toList =
    if folder = "" ∨ folder.endsWith "/" then folder.toList ++ name.toList
    else folder.toList ++ '/' :: name.toList := by
  rw [h.join_eq]
  split <;> simp

/-- The last name along the path of a folder counts, unless it is empty. -/
theorem splitOn_join (folder : String) (h : Single name) :
    (join folder name).splitOn "/" = folder.splitOn "/" ++ [name] ∨
      ∃ front, folder.splitOn "/" = front ++ [""] ∧
        (join folder name).splitOn "/" = front ++ [name] := by
  have hname : name.toList.splitOn '/' = [name.toList] := List.splitOn_eq_singleton h.no_slash
  simp only [splitOn_slash, toList_join folder h]
  by_cases hempty : folder = ""
  · subst hempty
    refine .inr ⟨[], rfl, ?_⟩
    simp [hname]
  · by_cases hslash : folder.endsWith "/" = true
    · obtain ⟨front, hfront⟩ := endsWith_slash.1 hslash
      refine .inr ⟨(front.splitOn '/').map String.ofList, ?_, ?_⟩
      · rw [← hfront, List.splitOn_append_cons_self]
        simp
      · rw [if_pos (.inr hslash), ← hfront, List.append_assoc, List.singleton_append,
          List.splitOn_append_cons_self, hname]
        simp
    · rw [if_neg (by simp [hempty, hslash]), List.splitOn_append_cons_self, hname]
      exact .inl (by simp)

theorem startsWith_join (folder : String) (h : Single name) :
    (join folder name).startsWith "/" = folder.startsWith "/" := by
  have hname := h.startsWith_slash
  rw [Bool.eq_iff_iff, startsWith_slash, startsWith_slash, toList_join folder h]
  rw [← Bool.not_eq_true, startsWith_slash] at hname
  by_cases hempty : folder = ""
  · subst hempty
    simpa using hname
  · obtain ⟨c, cs, hcs⟩ := List.exists_cons_of_ne_nil (String.toList_eq_nil_iff.not.2 hempty)
    rw [hcs]
    split <;> simp [List.cons_prefix_cons]

theorem mem_join {c : Char} (h : Single name) (hc : c ∈ (join folder name).toList) :
    c ∈ folder.toList ∨ c = '/' ∨ c ∈ name.toList := by
  rw [toList_join folder h] at hc
  split at hc <;> simp at hc <;> tauto

theorem mem_join_of_mem {c : Char} (h : Single name) (hc : c ∈ folder.toList) :
    c ∈ (join folder name).toList := by
  rw [toList_join folder h]
  split <;> exact List.mem_append_left _ hc

theorem join_ne_empty (h : Single name) : join folder name ≠ "" := by
  intro hempty
  have hlist := toList_join folder h
  rw [hempty] at hlist
  split at hlist
  · have hnil := (List.append_eq_nil_iff.1 hlist.symm).2
    exact h.ne_empty (String.toList_eq_nil_iff.1 hnil)
  · simp at hlist

/-- A path below a folder is the longer, the longer the name is. -/
theorem utf8ByteSize_join_mono (folder : String) {other : String} (h : Single name)
    (hother : Single other) (hle : other.utf8ByteSize ≤ name.utf8ByteSize) :
    (join folder other).utf8ByteSize ≤ (join folder name).utf8ByteSize := by
  rw [h.join_eq, hother.join_eq]
  split <;> simp only [String.utf8ByteSize_append] <;> omega

theorem utf8ByteSize_join_le (folder : String) (h : Single name) :
    (join folder name).utf8ByteSize ≤ folder.utf8ByteSize + 1 + name.utf8ByteSize := by
  have hslash : "/".utf8ByteSize = 1 := by decide
  rw [h.join_eq]
  split
  · rw [String.utf8ByteSize_append]
    omega
  · rw [String.utf8ByteSize_append, String.utf8ByteSize_append, hslash]

/-- The last name of a path below a folder. -/
theorem lastName?_join (folder : String) (h : Single name) :
    lastName? (join folder name) = some name := by
  have hkeep : (decide (name ≠ "") && decide (name ≠ ".")) = true := by
    simp [h.ne_empty, h.ne_dot]
  obtain ⟨front, hfront⟩ : ∃ front, (join folder name).splitOn "/" = front ++ [name] := by
    rcases splitOn_join folder h with hsplit | ⟨front, -, hsplit⟩
    · exact ⟨_, hsplit⟩
    · exact ⟨_, hsplit⟩
  unfold lastName?
  rw [hfront, List.reverse_append, List.reverse_singleton, List.singleton_append,
    List.filter_cons, if_pos hkeep]
  exact if_neg h.ne_dots

/-- A path leads into a folder, and what it ends in is the end of a name there. -/
theorem exists_join_append (path ending : String) (hslash : '/' ∉ ending.toList)
    (hlength : 3 ≤ ending.toList.length) :
    ∃ folder name, path ++ ending = join folder (name ++ ending) ∧ Single (name ++ ending) := by
  have hsplit := List.rdropWhile_append_rtakeWhile (p := (· ≠ '/')) (l := path.toList)
  generalize hfront : path.toList.rdropWhile (· ≠ '/') = front at hsplit
  generalize hlast : path.toList.rtakeWhile (· ≠ '/') = last at hsplit
  have hsingle : Single (String.ofList last ++ ending) := by
    have hlong : 3 ≤ (String.ofList last ++ ending).toList.length := by
      rw [String.toList_append, List.length_append]
      omega
    refine ⟨?_, ?_, ?_, ?_⟩
    · rw [String.toList_append, String.toList_ofList, List.mem_append, not_or, ← hlast]
      exact ⟨fun hmem => absurd (List.mem_rtakeWhile_imp hmem) (by simp), hslash⟩
    all_goals
      intro heq
      rw [heq] at hlong
      exact absurd hlong (by decide)
  refine ⟨String.ofList front, String.ofList last, ?_, hsingle⟩
  have hends : String.ofList front = "" ∨ (String.ofList front).endsWith "/" = true := by
    by_cases hempty : front = []
    · exact .inl (by rw [hempty])
    · right
      have hnot := List.rdropWhile_last_not (· ≠ '/') path.toList (hfront ▸ hempty)
      simp only [hfront, decide_eq_true_eq, ne_eq, Decidable.not_not] at hnot
      rw [endsWith_slash, String.toList_ofList]
      exact ⟨front.dropLast, hnot ▸ List.dropLast_append_getLast hempty⟩
  rw [← String.toList_inj, toList_join _ hsingle, if_pos hends]
  simp [← hsplit]

/-- What stands between two slashes has none in it. -/
theorem not_mem_of_mem_splitOn {c : Char} {cs part : List Char} (h : part ∈ cs.splitOn c) :
    c ∉ part := by
  induction cs generalizing part with
  | nil =>
    rw [List.splitOn_nil, List.mem_singleton] at h
    simp [h]
  | cons a cs ih =>
    rw [List.splitOn_cons_eq_if_modifyHead] at h
    split at h
    next =>
      rcases List.mem_cons.1 h with rfl | h
      · exact List.not_mem_nil
      · exact ih h
    next hne =>
      obtain ⟨first, rest, hsplit⟩ := List.exists_cons_of_ne_nil (List.splitOn_ne_nil c cs)
      rw [hsplit, List.modifyHead_cons] at h
      rcases List.mem_cons.1 h with rfl | h
      · have hfirst := ih (hsplit ▸ List.mem_cons_self)
        rw [List.mem_cons, not_or]
        exact ⟨fun heq => hne (beq_iff_eq.2 heq.symm), hfirst⟩
      · exact ih (hsplit ▸ List.mem_cons_of_mem _ h)

theorem no_slash_of_lastName? {path : String} (h : lastName? path = some name) :
    '/' ∉ name.toList := by
  unfold lastName? at h
  split at h
  next last rest hlast =>
    split at h
    · cases h
    · obtain rfl := Option.some.inj h
      have hmem : last ∈ path.splitOn "/" :=
        List.mem_reverse.1 (List.mem_filter.1 (hlast ▸ List.mem_cons_self)).1
      rw [splitOn_slash] at hmem
      obtain ⟨part, hpart, rfl⟩ := List.mem_map.1 hmem
      rw [String.toList_ofList]
      exact not_mem_of_mem_splitOn hpart
  next => cases h

/-! ### Endings -/

theorem mem_of_mem_withoutEnding {c : Char} (h : c ∈ (withoutEnding name).toList) :
    c ∈ name.toList := by
  unfold withoutEnding at h
  split at h
  next d e cs hdrop =>
    rw [String.toList_ofList, List.mem_reverse] at h
    have hmem : c ∈ name.toList.reverse.dropWhile (· ≠ '.') := by
      rw [hdrop]
      exact List.mem_cons_of_mem _ h
    exact List.mem_reverse.1 ((List.dropWhile_sublist _).subset hmem)
  next => exact h

theorem no_slash_of_stem? {path : String} (h : stem? path = some stem) : '/' ∉ stem.toList := by
  obtain ⟨name, hname, rfl⟩ := Option.map_eq_some_iff.1 h
  exact fun hmem => no_slash_of_lastName? hname (mem_of_mem_withoutEnding hmem)

/-- What follows the last dot of a name is its ending. -/
theorem withoutEnding_append (hstem : stem ≠ "") (hending : '.' ∉ ending.toList) :
    withoutEnding (stem ++ "." ++ ending) = stem := by
  obtain ⟨c, cs, hcs⟩ := List.exists_cons_of_ne_nil
    (List.reverse_ne_nil_iff.2 (String.toList_eq_nil_iff.not.2 hstem))
  have hdrop : (stem ++ "." ++ ending).toList.reverse.dropWhile (· ≠ '.') = '.' :: c :: cs := by
    have hlist : (stem ++ "." ++ ending).toList.reverse =
        ending.toList.reverse ++ ('.' :: stem.toList.reverse) := by simp
    have hall : ∀ c ∈ ending.toList.reverse, decide (c ≠ '.') = true := by
      intro c hc
      exact decide_eq_true fun h => hending (h ▸ List.mem_reverse.1 hc)
    rw [hlist, List.dropWhile_append_of_pos hall, List.dropWhile_cons_of_neg (by simp), hcs]
  unfold withoutEnding
  rw [hdrop]
  dsimp only
  rw [← hcs, List.reverse_reverse, String.ofList_toList]

end Path

end Guillotine
