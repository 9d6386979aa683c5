import Guillotine.Cache.MemoryStore
import Guillotine.Proofs.Cache.ScoreMap

/-! The sets of a backend in memory as maps from members to scores. Each change to the sets is a
change to the map of one set, and what is then asked for is answered from the maps alone, in
whatever order the entries of the sets are enumerated meanwhile. -/
namespace Guillotine

open Function (update)

/-! ### Changes -/

/-- A change to the sets of a backend. -/
inductive SetChange where
  | insert (set : String) (score : Float) (member : String)
  | removeRange (set : String) (low high : Float)
  | delete (set : String)

namespace SetChange

variable {c : SetChange} {σ : ScoreMap}

/-- The scores and the bounds are numbers. -/
def Numeric : SetChange → Prop
  | insert _ score _ => score.isNaN = false
  | removeRange _ low high => low.isNaN = false ∧ high.isNaN = false
  | delete _ => True

instance : (c : SetChange) → Decidable c.Numeric
  | insert _ score _ => inferInstanceAs (Decidable (score.isNaN = false))
  | removeRange _ low high => inferInstanceAs (Decidable (low.isNaN = false ∧ high.isNaN = false))
  | delete _ => .isTrue trivial

/-- The set that is changed. -/
def target : SetChange → String
  | insert set _ _ | removeRange set _ _ | delete set => set

/-- What becomes of the scores of the set. -/
def rescore : SetChange → ScoreMap → ScoreMap
  | insert _ score member, σ => update σ member (some score)
  | removeRange _ low high, σ => fun member =>
      (σ member).filter fun x => !decide (low ≤ x ∧ x ≤ high)
  | delete _, _ => fun _ => none

/-- What becomes of the entries of the set. -/
def reenter : SetChange → ScoredSet → ScoredSet
  | insert _ score member, s => Table.insert s member score
  | removeRange _ low high, s => s.outside low high
  | delete _, _ => .empty

/-- The memory after the change was asked for. -/
def run : SetChange → MemoryStore → MemoryStore
  | insert set score member, m => (m.insertScored set score member).1
  | removeRange set low high, m => (m.removeScored set low high).1
  | delete set, m => (m.delete set).1

theorem Numeric.rescore (h : c.Numeric) (hσ : σ.Numeric) : (c.rescore σ).Numeric := by
  intro member x hx
  cases c with
  | insert set score member' =>
    change update σ member' (some score) member = some x at hx
    by_cases hsame : member = member'
    · subst hsame
      rw [Function.update_self, Option.some.injEq] at hx
      exact hx ▸ h
    · exact hσ (Function.update_of_ne hsame (some score) σ ▸ hx)
  | removeRange set low high => exact hσ (Option.filter_eq_some_iff.1 hx).1
  | delete set => cases hx

/-- The entries of the set stay those of its map. -/
theorem Numeric.holds (h : c.Numeric) (hσ : σ.Numeric) {s : ScoredSet} (hs : s.Holds σ) :
    (c.reenter s).Holds (c.rescore σ) := by
  cases c with
  | insert set score member => exact hs.insert member score
  | removeRange set low high => exact hs.outside hσ h.1 h.2
  | delete set => exact ScoredSet.holds_empty

end SetChange

/-! ### Memories -/

/-- The scores of the members of each set. -/
abbrev ScoreMaps := String → ScoreMap

/-- The scores after some changes to sets without members. -/
def ScoreMaps.after (cs : List SetChange) : ScoreMaps :=
  cs.foldl (fun σ c => update σ c.target (c.rescore (σ c.target))) fun _ _ => none

theorem ScoreMaps.after_concat (cs : List SetChange) (c : SetChange) :
    after (cs ++ [c]) = update (after cs) c.target (c.rescore (after cs c.target)) := by
  rw [after, List.foldl_append]
  rfl

namespace MemoryStore

variable {m m' : MemoryStore} {σ : ScoreMaps} {cs : List SetChange} {c : SetChange}

/-- The entries of a set, none if there is no such set. -/
def members (m : MemoryStore) (set : String) : ScoredSet := (m.sets.get? set).getD .empty

/-- Ranks that can be counted are those of the ranking. -/
theorem ranked_eq {set : String} {start stop : UInt64} (hsets : m.setsBlocked = false)
    (hle : start ≤ stop) (hstop : stop.toNat + 1 < UInt64.size) : m.ranked set start stop =
      (m, .ok (.ok ((((m.members set).ranking compareValues).drop start.toNat).take
        (stop.toNat - start.toNat + 1)))) := by
  unfold ranked members
  rw [hsets, if_neg Bool.false_ne_true]
  cases m.sets.get? set with
  | none => simp [Table.empty, ScoredSet.ranking]
  | some s =>
    dsimp only
    rw [if_neg (UInt64.not_lt.2 hle), ScoredSet.slice, if_pos (by omega)]
    rfl

/-- What a change makes of a memory, if that can be asked: another set in one place. -/
structure Changed (c : SetChange) (m m' : MemoryStore) : Prop where
  valuesBlocked : m'.valuesBlocked = m.valuesBlocked
  setsBlocked : m'.setsBlocked = m.setsBlocked
  others : ∀ set ≠ c.target, m'.sets.get? set = m.sets.get? set
  changed : m.valuesBlocked = false → m.setsBlocked = false →
    m'.members c.target = c.reenter (m.members c.target)

/-- A memory that cannot be asked stays as it is. -/
theorem Changed.blocked (h : m.valuesBlocked = true ∨ m.setsBlocked = true) : Changed c m m :=
  ⟨rfl, rfl, fun _ _ => rfl, fun hvalues hsets => by simp [hvalues, hsets] at h⟩

theorem Changed.put :
    Changed c m { m with sets := m.sets.insert c.target (c.reenter (m.members c.target)) } where
  valuesBlocked := rfl
  setsBlocked := rfl
  others _ h := (Table.get?_insert ..).trans (if_neg h)
  changed _ _ := congrArg (Option.getD · _) ((Table.get?_insert ..).trans (if_pos rfl))

theorem changed_run (c : SetChange) (m : MemoryStore) : Changed c m (c.run m) := by
  cases c with
  | insert set score member =>
    simp only [SetChange.run, insertScored]
    split
    next hsets => exact .blocked (.inr hsets)
    next => exact .put
  | removeRange set low high =>
    simp only [SetChange.run, removeScored]
    split
    next hsets => exact .blocked (.inr hsets)
    next =>
      cases hset : m.sets.get? set with
      | none =>
        have hmembers : m.members set = .empty := by rw [members, hset, Option.getD_none]
        refine ⟨rfl, rfl, fun _ _ => rfl, fun _ _ => ?_⟩
        rw [SetChange.target, hmembers]
        rfl
      | some s =>
        obtain rfl : m.members set = s := by rw [members, hset, Option.getD_some]
        exact .put
  | delete set =>
    simp only [SetChange.run, delete]
    split
    next hvalues => exact .blocked (.inl hvalues)
    next =>
      split
      next hsets =>
        exact ⟨rfl, rfl, fun _ _ => rfl, fun _ hopen => absurd (hsets.symm.trans hopen) nofun⟩
      next =>
        exact ⟨rfl, rfl, fun _ h => (Table.get?_erase ..).trans (if_neg h),
          fun _ _ => congrArg (Option.getD · _) ((Table.get?_erase ..).trans (if_pos rfl))⟩

/-- What two memories have in common that differ in the order of the members of their sets, whatever
their texts. -/
structure Reordered (m m' : MemoryStore) : Prop where
  valuesBlocked : m.valuesBlocked = m'.valuesBlocked
  setsBlocked : m.setsBlocked = m'.setsBlocked
  sets : ∀ set,
    Option.Rel (fun s t => s.entries.Perm t.entries) (m.sets.get? set) (m'.sets.get? set)

/-- The memories to which some changes to a new one can lead, the members of each set being in any
order between the changes and after them. -/
inductive Ran : List SetChange → MemoryStore → Prop
  | start : Ran [] .empty
  | change {cs : List SetChange} {m : MemoryStore} (c : SetChange) (h : Ran cs m) :
    Ran (cs ++ [c]) (c.run m)
  | reorder {cs : List SetChange} {m m' : MemoryStore} (h : Ran cs m) (hsame : Reordered m m') :
    Ran cs m'

/-- A memory that can be asked for its sets, whose entries are those of some maps of numbers. -/
structure Represents (m : MemoryStore) (σ : ScoreMaps) : Prop where
  valuesBlocked : m.valuesBlocked = false
  setsBlocked : m.setsBlocked = false
  numeric : ∀ set, (σ set).Numeric
  holds : ∀ set, (m.members set).Holds (σ set)

theorem represents_empty : Represents .empty fun _ _ => none :=
  ⟨rfl, rfl, fun _ => nofun, fun _ => ScoredSet.holds_empty⟩

theorem Represents.change (h : m.Represents σ) (hc : c.Numeric) (hm : Changed c m m') :
    m'.Represents (update σ c.target (c.rescore (σ c.target))) where
  valuesBlocked := hm.valuesBlocked.trans h.valuesBlocked
  setsBlocked := hm.setsBlocked.trans h.setsBlocked
  numeric set := by
    by_cases hsame : set = c.target
    · subst hsame
      rw [Function.update_self]
      exact hc.rescore (h.numeric _)
    · rw [Function.update_of_ne hsame]
      exact h.numeric set
  holds set := by
    by_cases hsame : set = c.target
    · subst hsame
      rw [Function.update_self, hm.changed h.valuesBlocked h.setsBlocked]
      exact hc.holds (h.numeric _) (h.holds _)
    · rw [Function.update_of_ne hsame, members, hm.others set hsame]
      exact h.holds set

theorem Represents.reorder (h : m.Represents σ) (hsame : Reordered m m') : m'.Represents σ where
  valuesBlocked := hsame.valuesBlocked.symm.trans h.valuesBlocked
  setsBlocked := hsame.setsBlocked.symm.trans h.setsBlocked
  numeric := h.numeric
  holds set := by
    refine (h.holds set).of_perm ?_
    have hperm := hsame.sets set
    unfold members
    generalize m.sets.get? set = s, m'.sets.get? set = t at hperm ⊢
    cases hperm with
    | none => exact .refl _
    | some hperm => exact hperm

theorem Ran.represents (h : Ran cs m) (hcs : ∀ c ∈ cs, c.Numeric) :
    m.Represents (ScoreMaps.after cs) := by
  induction h with
  | start => exact represents_empty
  | change c h ih =>
    rw [ScoreMaps.after_concat]
    exact (ih fun c' hc' => hcs c' (List.mem_append_left _ hc')).change (hcs c (by simp))
      (changed_run c _)
  | reorder h hsame ih => exact (ih hcs).reorder hsame

/-- The number of members that a removal answers with. -/
theorem Represents.removeScored {set : String} {low high : Float} (h : m.Represents σ)
    (hlow : low.isNaN = false) (hhigh : high.isNaN = false) : (m.removeScored set low high).2 =
      .ok {member | ∃ x, σ set member = some x ∧ low ≤ x ∧ x ≤ high}.ncard := by
  rw [← (h.holds set).size_sub (h.numeric set) hlow hhigh]
  unfold MemoryStore.removeScored members
  rw [h.setsBlocked, if_neg Bool.false_ne_true]
  cases m.sets.get? set <;> rfl

/-- What is answered about a set depends on the set alone. -/
theorem ranked_congr {set : String} {start stop : UInt64}
    (hblocked : m.setsBlocked = m'.setsBlocked)
    (hset : m.sets.get? set = m'.sets.get? set) :
    (m.ranked set start stop).2 = (m'.ranked set start stop).2 := by
  unfold MemoryStore.ranked
  rw [hblocked, hset]
  cases m'.setsBlocked with
  | true => rfl
  | false =>
    cases m'.sets.get? set with
    | none => rfl
    | some s =>
      by_cases hlt : stop < start
      · simp [hlt]
      · cases hslice : ScoredSet.slice start stop (s.ranking compareValues) <;> simp [hlt, hslice]

theorem removeScored_congr {set : String} {low high : Float}
    (hblocked : m.setsBlocked = m'.setsBlocked) (hset : m.sets.get? set = m'.sets.get? set) :
    (m.removeScored set low high).2 = (m'.removeScored set low high).2 := by
  unfold MemoryStore.removeScored
  rw [hblocked, hset]
  cases m'.setsBlocked with
  | true => rfl
  | false => cases m'.sets.get? set <;> rfl

/-- What a memory answers that is asked for sets with some scores, and for one set after a change to
another. -/
structure Answers (m : MemoryStore) (σ : ScoreMaps) : Prop where
  ranked : ∀ set start stop rank, (σ set).Ranks rank → start ≤ stop →
    stop.toNat + 1 < UInt64.size → m.ranked set start stop =
      (m, .ok (.ok ((rank.drop start.toNat).take (stop.toNat - start.toNat + 1))))
  removed : ∀ set low high, low.isNaN = false → high.isNaN = false →
    (m.removeScored set low high).2 =
      .ok {member | ∃ x, σ set member = some x ∧ low ≤ x ∧ x ≤ high}.ncard
  apart : ∀ (c : SetChange), ∀ set ≠ c.target,
    (∀ start stop, ((c.run m).ranked set start stop).2 = (m.ranked set start stop).2) ∧
      ∀ low high, ((c.run m).removeScored set low high).2 = (m.removeScored set low high).2

theorem Represents.answers (h : m.Represents σ) : m.Answers σ where
  ranked set start stop rank hrank hle hstop := by
    rw [ranked_eq h.setsBlocked hle hstop,
      ((h.holds set).ranks (h.numeric set)).unique (h.numeric set) hrank]
  removed _ _ _ hlow hhigh := h.removeScored hlow hhigh
  apart c set hset :=
    have hm := changed_run c m
    ⟨fun _ _ => ranked_congr hm.setsBlocked (hm.others set hset),
      fun _ _ => removeScored_congr hm.setsBlocked (hm.others set hset)⟩

theorem exists_ran (cs : List SetChange) : ∃ m, Ran cs m := by
  induction cs using List.reverseRecOn with
  | nil => exact ⟨_, .start⟩
  | append_singleton cs c ih =>
    obtain ⟨m, hm⟩ := ih
    exact ⟨_, hm.change c⟩

/-- After any changes to the sets of a new memory, their members are ranked by the scores that they
were given last and have not lost since, in the one order that these determine, however the sets are
enumerated; a removal answers with the number of members in its range, and no change to a set can be
seen in another. -/
theorem sets_are_maps (cs : List SetChange) (hcs : ∀ c ∈ cs, c.Numeric) :
    (∀ set, ∃! rank, (ScoreMaps.after cs set).Ranks rank) ∧
      ∀ m, Ran cs m → m.Answers (ScoreMaps.after cs) := by
  constructor
  · intro set
    obtain ⟨m, hm⟩ := exists_ran cs
    have h := hm.represents hcs
    exact ⟨_, (h.holds set).ranks (h.numeric set), fun _ hrank => hrank.unique (h.numeric set)
      ((h.holds set).ranks (h.numeric set))⟩
  · exact fun m hm => (hm.represents hcs).answers

/-- Changes to two sets: a score that is replaced, zeros of both signs, a range without an end, and
a set that is deleted. -/
def revisions : List SetChange :=
  [.insert "recent" 1 "a", .insert "recent" (-0) "b", .insert "other" 5 "a", .insert "recent" 0 "c",
    .insert "recent" 2 "a", .insert "recent" 7 "d", .removeRange "recent" 5 (1 / 0),
    .delete "other"]

def revised : MemoryStore := revisions.foldl (fun m c => c.run m) .empty

theorem ran_revised : Ran revisions revised :=
  (((((((Ran.start.change _).change _).change _).change _).change _).change _).change _).change _

theorem members_revised :
    (revised.members "recent").entries.Perm [("a", 2), ("c", 0), ("b", -0)] := by
  decide +kernel

theorem sets_are_maps_revised : (∀ c ∈ revisions, c.Numeric) ∧ Ran revisions revised ∧
    (revised.ranked "recent" 0 1).2 = .ok (.ok ["a", "c"]) ∧
    {member | ∃ x, ScoreMaps.after revisions "recent" member = some x ∧ -0 ≤ x ∧ x ≤ 0}.ncard =
      2 := by
  have hnumeric : ∀ c ∈ revisions, c.Numeric := by decide +kernel
  have hanswers := (sets_are_maps revisions hnumeric).2 revised ran_revised
  have h := ran_revised.represents hnumeric
  -- In rank order the entries need no sorting.
  have hrank := ((h.holds "recent").of_perm (t := ⟨_⟩) members_revised).ranks (h.numeric _)
  rw [ScoredSet.ranking_of_pairwise (by decide +kernel)] at hrank
  refine ⟨hnumeric, ran_revised, ?_, ?_⟩
  · rw [hanswers.ranked _ 0 1 _ hrank (by decide) (by decide)]
    rfl
  · have hremoved := hanswers.removed "recent" (-0) 0 (by decide +kernel) (by decide +kernel)
    exact Except.ok.inj (hremoved.symm.trans (by decide +kernel))

end MemoryStore

end Guillotine
