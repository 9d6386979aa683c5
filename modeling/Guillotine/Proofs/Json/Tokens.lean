import Guillotine.Proofs.Json.Numerals

/-! The tokens of a tree are read off its text. A number at the end of what was read is complete
only with the next character, so a text is said to have some tokens if reading it between tokens
ends there, or within a number that may end. -/
namespace Guillotine

namespace Json

mutual

/-- The tokens of a tree. -/
def tokens : Json → List Token
  | .null => [.scalar .null]
  | .bool b => [.scalar (.bool b)]
  | .number n => [.scalar (.number n)]
  | .string s => [.literal s]
  | .array items => .openArray :: tokensOfItems items ++ [.closeArray]
  | .object members => .openObject :: tokensOfMembers members ++ [.closeObject]

/-- The tokens of some items, with commas between them. -/
def tokensOfItems : List Json → List Token
  | [] => []
  | [j] => tokens j
  | j :: js => tokens j ++ .comma :: tokensOfItems js

/-- The tokens of some members, with commas between them. -/
def tokensOfMembers : List (Literal × Json) → List Token
  | [] => []
  | [(k, j)] => .literal k :: .colon :: tokens j
  | (k, j) :: ms => .literal k :: .colon :: tokens j ++ .comma :: tokensOfMembers ms

end

/-- Whether all numbers of a tree are ones that a text denotes. -/
inductive Proper : Json → Prop
  | null : Proper .null
  | bool (b : Bool) : Proper (.bool b)
  | number {n : Numeral} (h : n.Proper) : Proper (.number n)
  | string (s : Literal) : Proper (.string s)
  | array {items : List Json} (h : ∀ j ∈ items, Proper j) : Proper (.array items)
  | object {members : List (Literal × Json)} (h : ∀ m ∈ members, Proper m.2) :
    Proper (.object members)

end Json

namespace Lexer

variable {s : State} {ts : List Token} {cs cs' : List Char} {toks toks' : List Token}

/-- Whether what was read up to a state are these tokens, the last one first. -/
def State.Reads (s : State) (ts : List Token) : Prop :=
  s = ⟨.between, ts⟩ ∨
    ∃ n v rest, s = ⟨.number n, rest⟩ ∧ n.finish = some v ∧ ts = .scalar (.number v) :: rest

theorem State.Reads.finish (h : s.Reads ts) : finish s = some ts.reverse := by
  rcases h with rfl | ⟨n, v, rest, rfl, hn, rfl⟩
  · rfl
  · simp only [Lexer.finish, hn, Option.map_some]

/-- A character that cannot belong to a number is read as one between tokens. -/
theorem State.Reads.step {c : Char} (h : s.Reads ts) (hc : ∀ n : NumberState, n.step c = none) :
    step s (some c) = stepBetween ts c := by
  rcases h with rfl | ⟨n, v, rest, rfl, hn, rfl⟩
  · rfl
  · simp only [Lexer.step, hc n, hn]
    rfl

/-- Whether some characters between tokens are read as these tokens. -/
def Lexes (cs : List Char) (toks : List Token) : Prop :=
  ∀ ts, ∃ s, (cs.map some).foldlM step ⟨.between, ts⟩ = some s ∧ s.Reads (toks.reverse ++ ts)

theorem lexes_nil : Lexes [] [] := fun ts => ⟨⟨.between, ts⟩, rfl, .inl rfl⟩

/-- A mark may follow any token, and any token may follow it. -/
theorem Lexes.mark {c : Char} {t : Token} (hc : ∀ n : NumberState, n.step c = none)
    (ht : ∀ ts, stepBetween ts c = some ⟨.between, t :: ts⟩) (h : Lexes cs toks)
    (h' : Lexes cs' toks') : Lexes (cs ++ c :: cs') (toks ++ t :: toks') := by
  intro ts
  obtain ⟨s, hs, hreads⟩ := h ts
  obtain ⟨s', hs', hreads'⟩ := h' (t :: (toks.reverse ++ ts))
  refine ⟨s', ?_, by simpa using hreads'⟩
  rw [List.map_append, List.foldlM_append, hs, List.map_cons]
  change List.foldlM Lexer.step s (some c :: cs'.map some) = _
  rw [List.foldlM_cons, hreads.step hc, ht]
  exact hs'

/-- A mark that opens something. -/
theorem Lexes.open {c : Char} {t : Token}
    (ht : ∀ ts, stepBetween ts c = some ⟨.between, t :: ts⟩) (h : Lexes cs toks) :
    Lexes (c :: cs) (t :: toks) := by
  intro ts
  obtain ⟨s, hs, hreads⟩ := h (t :: ts)
  refine ⟨s, ?_, by simpa using hreads⟩
  rw [List.map_cons, List.foldlM_cons]
  change stepBetween ts c >>= _ = _
  rw [ht]
  exact hs

theorem step_comma (n : NumberState) : n.step ',' = none := by cases n <;> rfl

theorem step_colon (n : NumberState) : n.step ':' = none := by cases n <;> rfl

theorem step_closeArray (n : NumberState) : n.step ']' = none := by cases n <;> rfl

theorem step_closeObject (n : NumberState) : n.step '}' = none := by cases n <;> rfl

/-! ### Strings -/

/-- A literal that is being read and denotes a text so far. -/
def StringState.plain (done : List Char) : StringState := ⟨done, none, false, .none⟩

theorem hexDigit?_digitChar {d : Nat} (hd : d < 16) :
    StringState.hexDigit? (Nat.digitChar d) = some d := by
  interval_cases d <;> rfl

theorem step_unicode {l : StringState} {c : Char} {count value d : Nat}
    (hl : l.escape = .unicode count value) (hc : StringState.hexDigit? c = some d) :
    step ⟨.string l, ts⟩ (some c) = some ⟨.string (if count = 3 then l.pushUnit (16 * value + d)
      else { l with escape := .unicode (count + 1) (16 * value + d) }), ts⟩ := by
  simp [step, StringState.step, StringState.open?, hl, hc]

/-- A control character is read off its code. -/
theorem foldlM_control {c : Char} (hc : c.toNat < 0x20) (done : List Char) :
    (['\\', 'u', '0', '0', Nat.digitChar (c.toNat / 16), Nat.digitChar (c.toNat % 16)].map
      some).foldlM step ⟨.string (.plain done), ts⟩ = some ⟨.string (.plain (c :: done)), ts⟩ := by
  have hhigh := hexDigit?_digitChar (d := c.toNat / 16) (by omega)
  have hlow := hexDigit?_digitChar (d := c.toNat % 16) (by omega)
  have hvalue : 16 * (16 * 0 + c.toNat / 16) + c.toNat % 16 = c.toNat := by omega
  change List.foldlM step
    ⟨.string { StringState.plain done with escape := .unicode 2 0 }, ts⟩ [some _, some _] = _
  rw [List.foldlM_cons, step_unicode rfl hhigh, if_neg (by omega)]
  change List.foldlM step
    ⟨.string { StringState.plain done with escape := .unicode 3 _ }, ts⟩ [some _] = _
  rw [List.foldlM_cons, step_unicode rfl hlow, if_pos rfl, hvalue, StringState.pushUnit,
    if_neg (by omega), if_neg (by omega), Char.ofNat_toNat]
  rfl

/-- A character inside quotes is read as it was written. -/
theorem foldlM_escape (c : Char) (done : List Char) :
    ((Literal.escape c).map some).foldlM step ⟨.string (.plain done), ts⟩ =
      some ⟨.string (.plain (c :: done)), ts⟩ := by
  unfold Literal.escape
  split
  next h => subst h; rfl
  next hquote =>
    split
    next h => subst h; rfl
    next hbackslash =>
      split
      next h => subst h; rfl
      next =>
        split
        next h => subst h; rfl
        next =>
          split
          next h => subst h; rfl
          next =>
            split
            next h => subst h; rfl
            next =>
              split
              next h => subst h; rfl
              next =>
                split
                next hcontrol => exact foldlM_control hcontrol done
                next hcontrol =>
                  simp [step, StringState.step, StringState.plain, StringState.push, hquote,
                    hbackslash, hcontrol]

/-- A text between quotes is read as it was written. -/
theorem foldlM_escapes (text done : List Char) :
    ((text.flatMap Literal.escape).map some).foldlM step ⟨.string (.plain done), ts⟩ =
      some ⟨.string (.plain (text.reverse ++ done)), ts⟩ := by
  induction text generalizing done with
  | nil => rfl
  | cons c text ih =>
    rw [List.flatMap_cons, List.map_append, List.foldlM_append, foldlM_escape]
    change List.foldlM step ⟨.string (.plain (c :: done)), ts⟩ _ = _
    rw [ih, List.reverse_cons, List.append_assoc]
    rfl

/-- A literal is read as it was written. -/
theorem lexes_literal (l : Literal) : Lexes (Literal.write l) [.literal l] := by
  intro ts
  refine ⟨⟨.between, .literal l :: ts⟩, ?_, .inl rfl⟩
  cases l with
  | none => rfl
  | some s =>
    change List.foldlM step ⟨.string (.plain []), ts⟩
      ((s.toList.flatMap Literal.escape ++ ['"']).map some) = _
    rw [List.map_append, List.foldlM_append, foldlM_escapes]
    change some (State.mk .between
      (.literal (some (String.ofList (s.toList.reverse ++ []).reverse)) :: ts)) = _
    rw [List.append_nil, List.reverse_reverse, String.ofList_toList]

/-! ### Trees -/

theorem lexes_numeral {n : Numeral} (hn : n.Proper) : Lexes n.write [.scalar (.number n)] := by
  intro ts
  obtain ⟨s, hs, hfinish⟩ := foldlM_numeral ts hn
  exact ⟨_, hs, .inr ⟨s, n, ts, rfl, hfinish, rfl⟩⟩

theorem lexes_items {items : List Json} (h : ∀ j ∈ items, Lexes j.write j.tokens) :
    Lexes (Json.writeItems items) (Json.tokensOfItems items) := by
  induction items with
  | nil => exact lexes_nil
  | cons j items ih =>
    rw [List.forall_mem_cons] at h
    cases items with
    | nil => exact h.1
    | cons k items => exact h.1.mark step_comma (fun _ => rfl) (ih h.2)

theorem lexes_members {members : List (Literal × Json)}
    (h : ∀ m ∈ members, Lexes m.2.write m.2.tokens) :
    Lexes (Json.writeMembers members) (Json.tokensOfMembers members) := by
  induction members with
  | nil => exact lexes_nil
  | cons m members ih =>
    obtain ⟨k, j⟩ := m
    rw [List.forall_mem_cons] at h
    have hm := (lexes_literal k).mark step_colon (fun _ => rfl) h.1
    cases members with
    | nil => exact hm
    | cons m members =>
      have := hm.mark step_comma (fun _ => rfl) (ih h.2)
      simpa [Json.writeMembers, Json.tokensOfMembers] using this

/-- A tree is read off its text, token by token. -/
theorem lexes_write {j : Json} (h : j.Proper) : Lexes j.write j.tokens := by
  induction h with
  | null => exact fun ts => ⟨⟨.between, .scalar .null :: ts⟩, rfl, .inl rfl⟩
  | bool b =>
    cases b with
    | false => exact fun ts => ⟨⟨.between, .scalar (.bool false) :: ts⟩, rfl, .inl rfl⟩
    | true => exact fun ts => ⟨⟨.between, .scalar (.bool true) :: ts⟩, rfl, .inl rfl⟩
  | number h =>
    simp only [Json.write, Json.tokens]
    exact lexes_numeral h
  | string l =>
    simp only [Json.write, Json.tokens]
    exact lexes_literal l
  | array _ ih =>
    simp only [Json.write, Json.tokens]
    exact ((lexes_items ih).mark step_closeArray (fun _ => rfl) lexes_nil).open fun _ => rfl
  | object _ ih =>
    simp only [Json.write, Json.tokens]
    exact ((lexes_members ih).mark step_closeObject (fun _ => rfl) lexes_nil).open fun _ => rfl

/-! ### Indented trees -/

/-- Whether a character may stand after any token, and is none itself. -/
def Blank (c : Char) : Prop :=
  (∀ n : NumberState, n.step c = none) ∧ ∀ ts, stepBetween ts c = some ⟨.between, ts⟩

theorem blank_space : Blank ' ' := ⟨fun n => by cases n <;> rfl, fun _ => rfl⟩

theorem blank_newline : Blank '\n' := ⟨fun n => by cases n <;> rfl, fun _ => rfl⟩

theorem Lexes.blank {c : Char} (hc : Blank c) (h : Lexes cs toks) (h' : Lexes cs' toks') :
    Lexes (cs ++ c :: cs') (toks ++ toks') := by
  intro ts
  obtain ⟨s, hs, hreads⟩ := h ts
  obtain ⟨s', hs', hreads'⟩ := h' (toks.reverse ++ ts)
  refine ⟨s', ?_, by simpa using hreads'⟩
  rw [List.map_append, List.foldlM_append, hs, List.map_cons]
  change List.foldlM Lexer.step s (some c :: cs'.map some) = _
  rw [List.foldlM_cons, hreads.step hc.1, hc.2]
  exact hs'

/-- Spaces in front of tokens are skipped. -/
theorem Lexes.spaces (h : Lexes cs toks) (n : Nat) : Lexes (List.replicate n ' ' ++ cs) toks := by
  induction n with
  | zero => exact h
  | succ n ih => exact lexes_nil.blank blank_space ih

/-- The next tokens may stand on a line of their own. -/
theorem Lexes.newline (h : Lexes cs toks) (h' : Lexes cs' toks') (depth : Nat) :
    Lexes (cs ++ (Json.newline depth ++ cs')) (toks ++ toks') :=
  h.blank blank_newline (h'.spaces (2 * depth))

/-- What stands inside brackets that are closed on a line of their own. -/
theorem Lexes.bracketed {o c : Char} {t t' : Token}
    (ho : ∀ ts, stepBetween ts o = some ⟨.between, t :: ts⟩)
    (hc : ∀ ts, stepBetween ts c = some ⟨.between, t' :: ts⟩) (h : Lexes cs toks) (depth : Nat) :
    Lexes (o :: cs ++ Json.newline depth ++ [c]) (t :: toks ++ [t']) := by
  rw [List.append_assoc]
  exact (h.newline (lexes_nil.open hc) depth).open ho

theorem lexes_indentedItems {depth : Nat} {items : List Json}
    (h : ∀ j ∈ items, Lexes (j.writeIndented depth) j.tokens) :
    Lexes (Json.indentedItems depth items) (Json.tokensOfItems items) := by
  induction items with
  | nil =>
    simp only [Json.indentedItems, Json.tokensOfItems]
    exact lexes_nil
  | cons j items ih =>
    rw [List.forall_mem_cons] at h
    have hj := lexes_nil.newline h.1 depth
    cases items with
    | nil =>
      simp only [Json.indentedItems, Json.tokensOfItems]
      exact hj
    | cons k items =>
      simp only [Json.indentedItems, Json.tokensOfItems]
      exact hj.mark step_comma (fun _ => rfl) (ih h.2)

theorem lexes_indentedMembers {depth : Nat} {members : List (Literal × Json)}
    (h : ∀ m ∈ members, Lexes (m.2.writeIndented depth) m.2.tokens) :
    Lexes (Json.indentedMembers depth members) (Json.tokensOfMembers members) := by
  induction members with
  | nil =>
    simp only [Json.indentedMembers, Json.tokensOfMembers]
    exact lexes_nil
  | cons m members ih =>
    obtain ⟨k, j⟩ := m
    rw [List.forall_mem_cons] at h
    have hvalue := lexes_nil.blank blank_space h.1
    have hm := lexes_nil.newline ((lexes_literal k).mark step_colon (fun _ => rfl) hvalue) depth
    cases members with
    | nil => simpa [Json.indentedMembers, Json.tokensOfMembers] using hm
    | cons m members =>
      have := hm.mark step_comma (fun _ => rfl) (ih h.2)
      simpa [Json.indentedMembers, Json.tokensOfMembers] using this

/-- A tree has the same tokens when it is written over several lines. -/
theorem lexes_writeIndented {j : Json} (h : j.Proper) (depth : Nat) :
    Lexes (j.writeIndented depth) j.tokens := by
  induction h generalizing depth with
  | @array items _ ih =>
    cases items with
    | nil =>
      simp only [Json.writeIndented, Json.tokens, Json.tokensOfItems]
      exact (lexes_nil.open fun _ => rfl).open fun _ => rfl
    | cons j items =>
      simp only [Json.writeIndented, Json.tokens]
      exact (lexes_indentedItems fun j hj => ih j hj (depth + 1)).bracketed (fun _ => rfl)
        (fun _ => rfl) depth
  | @object members _ ih =>
    cases members with
    | nil =>
      simp only [Json.writeIndented, Json.tokens, Json.tokensOfMembers]
      exact (lexes_nil.open fun _ => rfl).open fun _ => rfl
    | cons m members =>
      simp only [Json.writeIndented, Json.tokens]
      exact (lexes_indentedMembers fun m hm => ih m hm (depth + 1)).bracketed (fun _ => rfl)
        (fun _ => rfl) depth
  | number hn =>
    simp only [Json.writeIndented, Json.tokens]
    exact lexes_numeral hn
  | string l =>
    simp only [Json.writeIndented, Json.tokens]
    exact lexes_literal l
  | null =>
    simp only [Json.writeIndented]
    exact lexes_write .null
  | bool b =>
    simp only [Json.writeIndented]
    exact lexes_write (.bool b)

/-! ### Whole texts -/

theorem Lexes.tokens? (h : Lexes cs toks) : Lexer.tokens? (cs.map some) = some toks := by
  obtain ⟨s, hs, hreads⟩ := h []
  unfold Lexer.tokens?
  rw [start, hs]
  change finish s = _
  rw [hreads.finish, List.append_nil, List.reverse_reverse]

theorem tokens?_write {j : Json} (h : j.Proper) :
    tokens? (j.write.map some) = some j.tokens :=
  (lexes_write h).tokens?

end Lexer

end Guillotine
