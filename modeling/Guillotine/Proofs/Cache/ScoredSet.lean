import Guillotine.Cache.ScoredSet
import Guillotine.Proofs.Decimal.Signed
import Guillotine.Proofs.Request.Order

/-! Sets with scores, apart from the order in which their entries are kept. Changes to two sets with
the same entries lead to such sets again, and their rankings are the same, under either order of
scores, as long as the scores are ordinary numbers. -/
namespace Guillotine

open Binary64 (Ordinary)

namespace Table

variable {κ α : Type} [DecidableEq κ] {t : Table κ α}

/-- Entries with different keys are all there in a table of them. -/
theorem perm_ofList {es : List (κ × α)} (h : (es.map Prod.fst).Nodup) :
    (ofList es).entries.Perm es := by
  have hgo : ∀ t : Table κ α, (∀ e ∈ t.entries, e.1 ∉ es.map Prod.fst) →
      (es.foldl (fun t e => t.insert e.1 e.2) t).entries.Perm (es ++ t.entries) := by
    induction es with
    | nil => exact fun _ _ => .refl _
    | cons e es ih =>
      intro t ht
      rw [List.map_cons, List.nodup_cons] at h
      have herase : (t.erase e.1).entries = t.entries :=
        List.filter_eq_self.2 fun f hf => decide_eq_true fun hkey =>
          ht f hf (hkey ▸ List.mem_cons_self)
      have hinsert : (t.insert e.1 e.2).entries = e :: t.entries := by
        rw [insert, herase]
      have hlater := ih h.2 (t.insert e.1 e.2) (by
        rw [hinsert, List.forall_mem_cons]
        exact ⟨h.1, fun f hf hmem => ht f hf (List.mem_cons_of_mem _ hmem)⟩)
      rw [hinsert] at hlater
      exact hlater.trans List.perm_middle
  exact (hgo empty nofun).trans (.of_eq (List.append_nil es))

theorem mem_insert {k : κ} {a : α} {e : κ × α} (h : e ∈ (t.insert k a).entries) :
    e = (k, a) ∨ e ∈ t.entries := by
  rcases List.mem_cons.1 h with rfl | h
  · exact .inl rfl
  · exact .inr (List.mem_filter.1 h).1

omit [DecidableEq κ] in
theorem nodup_filter {p : κ → α → Bool} (h : (t.entries.map Prod.fst).Nodup) :
    ((t.filter p).entries.map Prod.fst).Nodup :=
  h.sublist (List.filter_sublist.map Prod.fst)

theorem nodup_insert {k : κ} {a : α} (h : (t.entries.map Prod.fst).Nodup) :
    ((t.insert k a).entries.map Prod.fst).Nodup := by
  show (k :: (t.erase k).entries.map Prod.fst).Nodup
  rw [List.nodup_cons]
  constructor
  · intro hmem
    obtain ⟨e, he, hkey⟩ := List.mem_map.1 hmem
    exact of_decide_eq_true (List.mem_filter.1 he).2 hkey
  · exact nodup_filter h

theorem mem_of_get? {k : κ} {a : α} (h : t.get? k = some a) : (k, a) ∈ t.entries := by
  obtain ⟨⟨j, b⟩, hfind, rfl⟩ := Option.map_eq_some_iff.1 h
  have hkey : j = k := by simpa using List.find?_some hfind
  exact hkey ▸ List.mem_of_find?_eq_some hfind

/-- Where no key is there twice, each entry is found. -/
theorem get?_eq_some_iff_of_nodup (h : (t.entries.map Prod.fst).Nodup) {k : κ} {a : α} :
    t.get? k = some a ↔ (k, a) ∈ t.entries := by
  refine ⟨mem_of_get?, fun hmem => ?_⟩
  cases hget : t.get? k with
  | none =>
    rw [get?, Option.map_eq_none_iff, List.find?_eq_none] at hget
    exact absurd (decide_eq_true rfl) (hget _ hmem)
  | some b =>
    have heq := List.inj_on_of_nodup_map h (mem_of_get? hget) hmem rfl
    rw [(Prod.mk.inj heq).2]

/-- Where no key is there twice, the entries that satisfy a condition are found as before, and no
others. -/
theorem get?_filter_of_nodup (h : (t.entries.map Prod.fst).Nodup) (p : κ → α → Bool) (k : κ) :
    (t.filter p).get? k = (t.get? k).filter (p k) := by
  obtain ⟨es⟩ := t
  unfold get? filter
  dsimp only at h ⊢
  induction es with
  | nil => rfl
  | cons e es ih =>
    obtain ⟨j, a⟩ := e
    rw [List.map_cons, List.nodup_cons] at h
    have hlater := ih h.2
    by_cases hj : j = k
    · subst hj
      cases hp : p j a with
      | true => simp [hp, Option.filter_some]
      | false =>
        have hnone : (es.find? fun e => e.1 = j) = none := by
          rw [List.find?_eq_none]
          exact fun e he hkey => h.1 (List.mem_map.2 ⟨e, he, of_decide_eq_true hkey⟩)
        rw [List.filter_cons_of_neg (by simp [hp]), hlater, hnone]
        simp [hp, Option.filter_some]
    · cases hp : p j a <;> simpa [hp, hj] using hlater

end Table

namespace ScoredSet

variable {s t : ScoredSet} {member : String} {score low high : Float}

/-- The members are different, and their scores are ordinary numbers. -/
structure Orderly (s : ScoredSet) : Prop where
  nodup : (s.entries.map Prod.fst).Nodup
  scores : ∀ e ∈ s.entries, Ordinary e.2

theorem orderly_empty : Orderly .empty := ⟨List.nodup_nil, nofun⟩

theorem Orderly.insert (h : s.Orderly) (hscore : Ordinary score) :
    Orderly (Table.insert s member score) := by
  refine ⟨Table.nodup_insert h.nodup, fun e he => ?_⟩
  rcases Table.mem_insert he with rfl | hold
  · exact hscore
  · exact h.scores e hold

theorem Orderly.outside (h : s.Orderly) : (s.outside low high).Orderly :=
  ⟨Table.nodup_filter h.nodup, fun e he => h.scores e (List.mem_filter.1 he).1⟩

theorem Orderly.of_perm (h : s.Orderly) (hperm : s.entries.Perm t.entries) : t.Orderly :=
  ⟨(hperm.map Prod.fst).nodup_iff.1 h.nodup, fun e he => h.scores e (hperm.mem_iff.2 he)⟩

theorem perm_insert (member : String) (score : Float) (h : s.entries.Perm t.entries) :
    (Table.insert s member score).entries.Perm (Table.insert t member score).entries :=
  (h.filter _).cons _

theorem perm_outside (low high : Float) (h : s.entries.Perm t.entries) :
    (s.outside low high).entries.Perm (t.outside low high).entries :=
  h.filter _

/-- Where nothing is removed, everything is left. -/
theorem outside_eq_self (h : s.size - (s.outside low high).size = 0) : s.outside low high = s :=
  congrArg Table.mk (List.filter_sublist.eq_of_length_le (Nat.le_of_sub_eq_zero h))

/-! ### Rankings -/

/-- Entries by descending score. -/
def scoreOrder (order : Float → Float → Ordering) (a b : String × Float) : Ordering :=
  order b.2 a.2

/-- Entries by descending member. -/
def memberOrder (a b : String × Float) : Ordering := compare b.1 a.1

instance {order : Float → Float → Ordering} [Std.TransCmp order] :
    Std.TransCmp (scoreOrder order) where
  eq_swap {a b} := (Std.OrientedCmp.eq_swap : order b.2 a.2 = (order a.2 b.2).swap)
  isLE_trans {a _ c} h k := (Std.TransCmp.isLE_trans k h : (order c.2 a.2).isLE = true)

instance : Std.TransCmp memberOrder where
  eq_swap {a b} := (Std.OrientedCmp.eq_swap : compare b.1 a.1 = (compare a.1 b.1).swap)
  isLE_trans {a _ c} h k := (Std.TransCmp.isLE_trans k h : (compare c.1 a.1).isLE = true)

/-- Sets with the same entries have the same ranking. -/
theorem ranking_eq_of_perm (h : s.Orderly) (hperm : s.entries.Perm t.entries) :
    s.ranking compareSigned = t.ranking compareValues := by
  have hsigned : s.entries.mergeSort (ranksAtLeast compareSigned) =
      s.entries.mergeSort (ranksAtLeast compareValues) := by
    have hsame := List.map_mergeSort (r := ranksAtLeast compareSigned)
      (s := ranksAtLeast compareValues) (f := id) (l := s.entries) (by
        intro a ha b hb
        simp only [ranksAtLeast, id, Binary64.compareSigned_eq (h.scores b hb) (h.scores a ha)])
    rwa [List.map_id, List.map_id] at hsame
  have hvalues : s.entries.mergeSort (ranksAtLeast compareValues) =
      t.entries.mergeSort (ranksAtLeast compareValues) := by
    change (s.entries.mergeSort fun a b =>
      (compareLex (scoreOrder compareValues) memberOrder a b).isLE) = _
    refine mergeSort_eq_of_perm ?_ hperm
    intro a ha b hb htie
    have hkey : b.1 = a.1 := Std.compare_eq_iff_eq.1 (Ordering.then_eq_eq.1 htie).2
    exact List.inj_on_of_nodup_map h.nodup ha hb hkey.symm
  unfold ranking
  rw [hsigned, hvalues]

end ScoredSet

end Guillotine
