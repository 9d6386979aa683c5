import Guillotine.Json.Parser
import Guillotine.Proofs.Json.Tokens

/-! Texts read back as the trees they were written from. The parser, when it has gone through all
tokens of a tree, has delivered that tree to what was open around it; so a tree whose numbers are
proper is what its own text denotes. -/
namespace Guillotine

namespace Parser

variable {j : Json} {e : Expects} {fs : List Frame}

/-- Whether a value may come next. -/
def Expects.AllowsValue (e : Expects) : Prop := e = .value ∨ e = .firstValue

/-- Whether a key may come next. -/
def Expects.AllowsKey (e : Expects) : Prop := e = .key ∨ e = .firstKey

/-- Whether the parser delivers a tree when it has gone through its tokens. -/
def Delivers (j : Json) : Prop :=
  ∀ (e : Expects) (fs : List Frame), e.AllowsValue →
    j.tokens.foldlM step ⟨fs, e⟩ = deliver j fs

theorem foldlM_items {items : List Json} (hne : items ≠ []) (h : ∀ j ∈ items, Delivers j)
    (he : e.AllowsValue) (done : List Json) :
    (Json.tokensOfItems items).foldlM step ⟨.items done :: fs, e⟩ =
      some ⟨.items (items.reverse ++ done) :: fs, .next⟩ := by
  induction items generalizing done e with
  | nil => exact absurd rfl hne
  | cons j items ih =>
    rw [List.forall_mem_cons] at h
    have hj := h.1 e (.items done :: fs) he
    cases items with
    | nil => exact hj
    | cons k items =>
      change (j.tokens ++ .comma :: Json.tokensOfItems (k :: items)).foldlM step _ = _
      rw [List.foldlM_append, hj]
      change (Json.tokensOfItems (k :: items)).foldlM step ⟨.items (j :: done) :: fs, .value⟩ = _
      rw [ih (List.cons_ne_nil k items) h.2 (.inl rfl), @List.reverse_cons _ j (k :: items),
        List.append_assoc]
      rfl

theorem foldlM_members {members : List (Literal × Json)} (hne : members ≠ [])
    (h : ∀ m ∈ members, Delivers m.2) (he : e.AllowsKey) (done : List (Literal × Json)) :
    (Json.tokensOfMembers members).foldlM step ⟨.members done :: fs, e⟩ =
      some ⟨.members (members.reverse ++ done) :: fs, .next⟩ := by
  induction members generalizing done e with
  | nil => exact absurd rfl hne
  | cons m members ih =>
    obtain ⟨k, j⟩ := m
    rw [List.forall_mem_cons] at h
    have hkey : ∀ ts, (.literal k :: .colon :: ts).foldlM step ⟨.members done :: fs, e⟩ =
        ts.foldlM step ⟨.member k :: .members done :: fs, .value⟩ := by
      rcases he with rfl | rfl <;> exact fun _ => rfl
    have hj := h.1 .value (.member k :: .members done :: fs) (.inl rfl)
    cases members with
    | nil =>
      change (.literal k :: .colon :: j.tokens).foldlM step _ = _
      rw [hkey, hj]
      rfl
    | cons m members =>
      change (.literal k :: .colon ::
        (j.tokens ++ .comma :: Json.tokensOfMembers (m :: members))).foldlM step _ = _
      rw [hkey, List.foldlM_append, hj]
      change (Json.tokensOfMembers (m :: members)).foldlM step
        ⟨.members ((k, j) :: done) :: fs, .key⟩ = _
      rw [ih (List.cons_ne_nil m members) h.2 (.inl rfl),
        @List.reverse_cons _ (k, j) (m :: members), List.append_assoc]
      rfl

theorem delivers_array {items : List Json} (h : ∀ j ∈ items, Delivers j) :
    Delivers (.array items) := by
  intro e fs he
  have hopen : ∀ ts, (.openArray :: ts).foldlM step ⟨fs, e⟩ =
      ts.foldlM step ⟨.items [] :: fs, .firstValue⟩ := by
    rcases he with rfl | rfl <;> exact fun _ => rfl
  change (.openArray :: (Json.tokensOfItems items ++ [.closeArray])).foldlM step _ = _
  rw [hopen, List.foldlM_append]
  by_cases hne : items = []
  · subst hne
    exact bind_pure (deliver (.array []) fs)
  · rw [foldlM_items hne h (.inr rfl), List.append_nil]
    change (do deliver (.array items.reverse.reverse) fs >>= pure) = _
    rw [List.reverse_reverse, bind_pure]

theorem delivers_object {members : List (Literal × Json)} (h : ∀ m ∈ members, Delivers m.2) :
    Delivers (.object members) := by
  intro e fs he
  have hopen : ∀ ts, (.openObject :: ts).foldlM step ⟨fs, e⟩ =
      ts.foldlM step ⟨.members [] :: fs, .firstKey⟩ := by
    rcases he with rfl | rfl <;> exact fun _ => rfl
  change (.openObject :: (Json.tokensOfMembers members ++ [.closeObject])).foldlM step _ = _
  rw [hopen, List.foldlM_append]
  by_cases hne : members = []
  · subst hne
    exact bind_pure (deliver (.object []) fs)
  · rw [foldlM_members hne h (.inr rfl), List.append_nil]
    change (do deliver (.object members.reverse.reverse) fs >>= pure) = _
    rw [List.reverse_reverse, bind_pure]

/-- The parser rebuilds a tree from its tokens, whatever is open around it. -/
theorem delivers (h : j.Proper) : Delivers j := by
  induction h with
  | array _ ih => exact delivers_array ih
  | object _ ih => exact delivers_object ih
  | _ =>
    intro e fs he
    rcases he with rfl | rfl <;> exact bind_pure _

theorem parse?_tokens (h : j.Proper) : parse? j.tokens = some j := by
  unfold parse? start
  rw [delivers h .value [] (.inl rfl)]
  rfl

end Parser

/-- The text of a tree denotes the tree. -/
theorem Json.ofString?_compact {j : Json} (h : j.Proper) : ofString? j.compact = some j := by
  unfold ofString? ofGlyphs? compact
  rw [String.toList_ofList, Lexer.tokens?_write h]
  exact Parser.parse?_tokens h

/-- The text of a tree over several lines denotes the tree, too. -/
theorem Json.ofString?_indented {j : Json} (h : j.Proper) : ofString? j.indented = some j := by
  unfold ofString? ofGlyphs? indented
  rw [String.toList_ofList, (Lexer.lexes_writeIndented h 0).tokens?]
  exact Parser.parse?_tokens h

/-- Different trees have different texts. -/
theorem Json.compact_inj {j k : Json} (hj : j.Proper) (hk : k.Proper)
    (h : j.compact = k.compact) : j = k := by
  have hread := ofString?_compact hj
  rw [h, ofString?_compact hk] at hread
  exact (Option.some.inj hread).symm

end Guillotine
