import Guillotine.Proofs.Bytes
import Guillotine.Proofs.Cache.ScoredSet
import Guillotine.Proofs.Request.Canonical

/-! A set with scores as a map from members to scores. The map alone determines the ranking of its
members, in which those of one score are ordered by their bytes, and how many of them have scores in
a range. -/
namespace Guillotine

open Function (update)

/-! ### Maps and rankings -/

/-- The scores of the members of a set. -/
abbrev ScoreMap := String → Option Float

namespace ScoreMap

variable {σ : ScoreMap}

/-- The scores are numbers. -/
def Numeric (σ : ScoreMap) : Prop := ∀ ⦃member x⦄, σ member = some x → x.isNaN = false

/-- A member with a score is ranked before another one: its score is greater, or the scores are the
same and its bytes come after those of the other one. -/
def Ahead (a b : String × Float) : Prop :=
  b.2 < a.2 ∨ a.2 == b.2 ∧ utf8Bytes b.1 < utf8Bytes a.1

/-- A list of all members, each of them once, in rank order. -/
structure Ranks (σ : ScoreMap) (members : List String) : Prop where
  nodup : members.Nodup
  mem_iff : ∀ member, member ∈ members ↔ (σ member).isSome
  ahead : members.Pairwise fun a b => ∀ x y, σ a = some x → σ b = some y → Ahead (a, x) (b, y)

/-- Being ahead is what the ranking compares. -/
theorem ahead_iff {a b : String × Float} (ha : a.2.isNaN = false) (hb : b.2.isNaN = false) :
    Ahead a b ↔
      compareLex (ScoredSet.scoreOrder compareValues) ScoredSet.memberOrder a b = .lt := by
  have hswap : compareValues b.2 a.2 = (compareValues a.2 b.2).swap := Std.OrientedCmp.eq_swap
  have hmember : ScoredSet.memberOrder a b = .lt ↔ utf8Bytes b.1 < utf8Bytes a.1 :=
    compare_lt_iff_lt.trans lt_iff_utf8Bytes
  rw [Ahead, lt_iff_compareValues b.2 ha, beq_iff_compareValues ha hb, ← hmember, compareLex,
    ScoredSet.scoreOrder, hswap]
  cases compareValues a.2 b.2 <;> simp

theorem Ranks.unique {xs ys : List String} (hσ : σ.Numeric) (h : σ.Ranks xs) (k : σ.Ranks ys) :
    xs = ys := by
  have hperm : xs.Perm ys :=
    (List.perm_ext_iff_of_nodup h.nodup k.nodup).2 fun member =>
      (h.mem_iff member).trans (k.mem_iff member).symm
  refine hperm.eq_of_pairwise ?_ h.ahead k.ahead
  intro a b ha hb hab hba
  obtain ⟨x, hx⟩ := Option.isSome_iff_exists.1 ((h.mem_iff a).1 ha)
  obtain ⟨y, hy⟩ := Option.isSome_iff_exists.1 ((k.mem_iff b).1 hb)
  have hlt := (ahead_iff (hσ hx) (hσ hy)).1 (hab x y hx hy)
  have hgt := (ahead_iff (hσ hy) (hσ hx)).1 (hba y x hy hx)
  exact absurd (Std.OrientedCmp.gt_of_lt hlt) (by simp [hgt])

end ScoreMap

namespace ScoredSet

variable {s t : ScoredSet} {σ : ScoreMap} {low high : Float}

/-! ### Sets that hold a map -/

/-- The entries of a set are those of a map. -/
structure Holds (s : ScoredSet) (σ : ScoreMap) : Prop where
  nodup : (s.entries.map Prod.fst).Nodup
  mem_iff : ∀ member x, (member, x) ∈ s.entries ↔ σ member = some x

theorem holds_empty : Holds .empty fun _ => none :=
  ⟨List.nodup_nil, fun _ _ => iff_of_false List.not_mem_nil nofun⟩

theorem Holds.of_perm (h : s.Holds σ) (hperm : s.entries.Perm t.entries) : t.Holds σ where
  nodup := (hperm.map Prod.fst).nodup_iff.1 h.nodup
  mem_iff member x := hperm.mem_iff.symm.trans (h.mem_iff member x)

theorem Holds.insert (h : s.Holds σ) (member : String) (score : Float) :
    Holds (Table.insert s member score) (update σ member (some score)) where
  nodup := Table.nodup_insert h.nodup
  mem_iff other x := by
    show (other, x) ∈ (member, score) :: s.entries.filter (fun e => decide (e.1 ≠ member)) ↔ _
    by_cases hsame : other = member
    · subst hsame
      simp [eq_comm]
    · rw [Function.update_of_ne hsame, ← h.mem_iff other x]
      simp [hsame]

/-- A score in a range of numbers is neither below nor above it. -/
theorem isOutside_eq_not {x : Float} (hlow : low.isNaN = false) (hhigh : high.isNaN = false)
    (hx : x.isNaN = false) : isOutside low high x = !decide (low ≤ x ∧ x ≤ high) := by
  rw [isOutside, Bool.eq_iff_iff]
  simp only [le_iff_not_lt hlow hx, le_iff_not_lt hx hhigh, Bool.or_eq_true, Bool.not_eq_true',
    decide_eq_true_eq, decide_eq_false_iff_not]
  tauto

theorem Holds.outside (h : s.Holds σ) (hσ : σ.Numeric) (hlow : low.isNaN = false)
    (hhigh : high.isNaN = false) : (s.outside low high).Holds fun member =>
      (σ member).filter fun x => !decide (low ≤ x ∧ x ≤ high) where
  nodup := Table.nodup_filter h.nodup
  mem_iff member x := by
    rw [Option.filter_eq_some_iff, ← h.mem_iff member x]
    refine List.mem_filter.trans (and_congr_right fun hmem => ?_)
    exact Bool.eq_iff_iff.1 (isOutside_eq_not hlow hhigh (hσ ((h.mem_iff member x).1 hmem)))

theorem Holds.ranks (h : s.Holds σ) (hσ : σ.Numeric) : σ.Ranks (s.ranking compareValues) := by
  have hperm : (s.entries.mergeSort (ranksAtLeast compareValues)).Perm s.entries :=
    List.mergeSort_perm _ _
  have hkeys : (s.ranking compareValues).Nodup := (hperm.map Prod.fst).nodup_iff.2 h.nodup
  have hsorted : (s.entries.mergeSort (ranksAtLeast compareValues)).Pairwise fun a b =>
      (compareLex (scoreOrder compareValues) memberOrder a b).isLE :=
    pairwise_mergeSort_isLE s.entries
  refine ⟨hkeys, fun member => ?_, ?_⟩
  · refine (hperm.map Prod.fst).mem_iff.trans ?_
    rw [Option.isSome_iff_exists]
    simp [← h.mem_iff]
  · refine List.pairwise_map.2 ((hsorted.and (List.pairwise_map.1 hkeys)).imp_of_mem ?_)
    rintro ⟨a, x⟩ ⟨b, y⟩ ha hb ⟨hle, hne⟩ x' y' hx' hy'
    have hx := (h.mem_iff a x).1 (hperm.mem_iff.1 ha)
    have hy := (h.mem_iff b y).1 (hperm.mem_iff.1 hb)
    obtain rfl : x = x' := Option.some.inj (hx.symm.trans hx')
    obtain rfl : y = y' := Option.some.inj (hy.symm.trans hy')
    have hcmp := Ordering.isLE_iff_eq_lt_or_eq_eq.1 hle
    -- Entries of different members do not compare as equal.
    refine (ScoreMap.ahead_iff (hσ hx) (hσ hy)).2 (hcmp.resolve_right ?_)
    exact fun htie => hne (Std.compare_eq_iff_eq.1 (Ordering.then_eq_eq.1 htie).2).symm

/-- Entries in rank order are ranked as they stand. -/
theorem ranking_of_pairwise (h : s.entries.Pairwise fun a b => ranksAtLeast compareValues a b) :
    s.ranking compareValues = s.entries.map Prod.fst :=
  congrArg (List.map Prod.fst) (List.mergeSort_of_pairwise h)

/-- As many entries are lost as there are members with scores in the range. -/
theorem Holds.size_sub (h : s.Holds σ) (hσ : σ.Numeric) (hlow : low.isNaN = false)
    (hhigh : high.isNaN = false) : s.size - (s.outside low high).size =
      {member | ∃ x, σ member = some x ∧ low ≤ x ∧ x ≤ high}.ncard := by
  let lost := s.entries.filter fun e => !isOutside low high e.2
  have hkept : (s.outside low high).entries =
      s.entries.filter fun e => isOutside low high e.2 := rfl
  have hlength : s.size = (s.outside low high).size + lost.length := by
    rw [Table.size, Table.size, hkept]
    exact List.length_eq_length_filter_add _
  have hkeys : (lost.map Prod.fst).Nodup := h.nodup.sublist (List.filter_sublist.map Prod.fst)
  have hlost : {member | ∃ x, σ member = some x ∧ low ≤ x ∧ x ≤ high} =
      ((lost.map Prod.fst).toFinset : Set String) := by
    ext member
    simp only [Set.mem_ofPred_eq, List.coe_toFinset, List.mem_map, Prod.exists, exists_and_right,
      exists_eq_right, lost, List.mem_filter]
    refine exists_congr fun x => ?_
    rw [h.mem_iff member x]
    refine and_congr_right fun hx => ?_
    rw [isOutside_eq_not hlow hhigh (hσ hx), Bool.not_not, decide_eq_true_iff]
  rw [hlost, Set.ncard_coe_finset, List.toFinset_card_of_nodup hkeys, List.length_map]
  exact Nat.sub_eq_of_eq_add (hlength.trans (Nat.add_comm _ _))

end ScoredSet

end Guillotine
