import Guillotine.Proofs.Board.Exact
import Guillotine.Proofs.Board.Handles

/-! The history of a free list. A change puts some rectangles in and takes some out, and a
commitment does both. The handles are given out one after the other, so after any changes the list
is all that was ever put in, in order, without what was taken out, and a handle leads to what was
put in under it until that is taken out. -/
namespace Guillotine

namespace FreeList

variable {f g : FreeList} {h k : Handle} {r s : Rect}

/-- The handles of the free rectangles in order of insertion. -/
def handles (f : FreeList) : List Handle := f.entries.map Prod.fst

theorem mem_handles_iff : h ∈ f.handles ↔ ∃ r, (h, r) ∈ f.entries := by
  simp [handles]

theorem InTurn.nodup (hf : f.InTurn) : f.handles.Nodup := hf.named.nodup

theorem InTurn.get?_eq_some_iff (hf : f.InTurn) : f.get? h = some r ↔ (h, r) ∈ f.entries :=
  ⟨mem_entries_of_get?, hf.named.get?_of_mem⟩

theorem InTurn.mem_handles (hf : f.InTurn) : h ∈ f.handles ↔ (f.get? h).isSome := by
  rw [mem_handles_iff, Option.isSome_iff_exists]
  exact exists_congr fun _ => hf.get?_eq_some_iff.symm

theorem InTurn.get?_eq_none_iff (hf : f.InTurn) : f.get? h = none ↔ h ∉ f.handles := by
  rw [hf.mem_handles, Option.not_isSome_iff_eq_none]

/-- The next handle is free. -/
theorem InTurn.next_not_mem (hf : f.InTurn) : f.next ∉ f.handles := by
  rw [mem_handles_iff]
  rintro ⟨r, hr⟩
  exact Nat.lt_irrefl _ (hf.below _ hr)

theorem InTurn.get?_insert (hf : f.InTurn) (r : Rect) (h : Handle) :
    (f.insert r).get? h = if h = f.next then some r else f.get? h := by
  refine Option.ext fun s => ?_
  rw [(hf.insert r).get?_eq_some_iff]
  simp only [FreeList.insert, List.mem_append, List.mem_singleton, Prod.mk.injEq,
    ← hf.get?_eq_some_iff]
  rcases eq_or_ne h f.next with rfl | hh
  · simp [hf.get?_eq_none_iff.2 hf.next_not_mem, eq_comm]
  · simp [hh]

theorem InTurn.get?_remove (hf : f.InTurn) (h k : Handle) :
    (f.remove h).get? k = if k = h then none else f.get? k := by
  refine Option.ext fun s => ?_
  rw [(hf.remove h).get?_eq_some_iff]
  simp only [FreeList.remove, List.mem_filter, ← hf.get?_eq_some_iff]
  by_cases hk : k = h <;> simp [hk]

/-- Nothing is removed under a handle that is not there. -/
theorem InTurn.remove_eq (hf : f.InTurn) (hh : f.get? h = none) : f.remove h = f := by
  have hkept : ∀ e ∈ f.entries, decide (e.1 ≠ h) = true := fun e he =>
    decide_eq_true fun heq => hf.get?_eq_none_iff.1 hh (heq ▸ List.mem_map_of_mem he)
  rw [FreeList.remove, List.filter_eq_self.2 hkept]

/-- Entries kept in order are those whose handles are kept. -/
theorem filter_handles_eq {es kept : List (Handle × Rect)} (hs : kept.Sublist es)
    (hn : (es.map Prod.fst).Nodup) : (es.filter fun e => e.1 ∈ kept.map Prod.fst) = kept := by
  induction hs with
  | slnil => rfl
  | @cons kept es e hs ih =>
    obtain ⟨hnew, hn⟩ := List.nodup_cons.1 hn
    have hdropped : e.1 ∉ kept.map Prod.fst := fun h => hnew ((hs.map _).subset h)
    rw [List.filter_cons_of_neg (by simpa using hdropped), ih hn]
  | @cons_cons kept es e hs ih =>
    obtain ⟨hnew, hn⟩ := List.nodup_cons.1 hn
    rw [List.filter_cons_of_pos (by simp)]
    refine congrArg _ ((List.filter_congr fun d hd => ?_).trans (ih hn))
    have hne : d.1 ≠ e.1 := fun h => hnew (h ▸ List.mem_map_of_mem hd)
    simp [hne]

/-! ### Changes -/

/-- A call that changes a free list. -/
inductive Change where
  | insert (r : Rect)
  | insertAll (rs : List Rect)
  | remove (h : Handle)
  | commit (h : Handle) (width height : Length) (c : Cutting)
  | prune

/-- What the changes are made of. -/
inductive Part where
  | put (r : Rect)
  | take (h : Handle)
  | prune

/-- The parts of a change where `found` shows the rectangles under their handles: a commitment takes
a rectangle out, puts the parts of its split in and prunes, but ends with the first of these if the
piece is too large. -/
def Change.parts (found : Handle → Option Rect) : Change → List Part
  | .insert r => [.put r]
  | .insertAll rs => rs.map .put
  | .remove h => [.take h]
  | .commit h w t c =>
    match found h with
    | none => []
    | some r =>
      .take h :: if r.fits w t then
        (c.rule.splitKept ⟨r, w, t, c.kerf⟩ c.leastSide).map .put ++ [.prune] else []
  | .prune => [.prune]

/-- A pruned free list, or the list as it was if pruning it faults. -/
def pruned (f : FreeList) : FreeList :=
  match f.prune with
  | .ok g => g
  | .error _ => f

/-- The free list after a change. A change that faults leaves what it had reached. -/
def change (f : FreeList) : Change → FreeList
  | .insert r => f.insert r
  | .insertAll rs => f.insertAll rs
  | .remove h => f.remove h
  | .commit h w t c => (f.commit h w t c).1
  | .prune => f.pruned

def part (f : FreeList) : Part → FreeList
  | .put r => f.insert r
  | .take h => f.remove h
  | .prune => f.pruned

theorem foldl_put (f : FreeList) (rs : List Rect) :
    (rs.map Part.put).foldl part f = f.insertAll rs := by
  rw [List.foldl_map]
  rfl

/-- A change is made of its parts. -/
theorem change_eq (f : FreeList) (c : Change) : f.change c = (c.parts f.get?).foldl part f := by
  cases c with
  | insert r => rfl
  | insertAll rs => exact (foldl_put f rs).symm
  | remove h => rfl
  | prune => rfl
  | commit h w t c =>
    simp only [change, commit, Change.parts]
    cases f.get? h with
    | none => rfl
    | some r =>
      by_cases hfits : r.fits w t = true
      · simp only [hfits, if_true, List.foldl_cons, List.foldl_append, foldl_put]
        change Prod.fst _ = pruned ((f.remove h).insertAll _)
        generalize (f.remove h).insertAll _ = g
        unfold pruned
        cases g.prune <;> rfl
      · simp only [hfits, if_false, Bool.false_eq_true]
        rfl

theorem pruned_sublist (f : FreeList) :
    f.pruned.entries.Sublist f.entries ∧ f.pruned.next = f.next := by
  unfold pruned
  split
  next hp => exact prune_sublist hp
  next => exact ⟨.refl _, rfl⟩

theorem InTurn.part (hf : f.InTurn) (p : Part) : (f.part p).InTurn := by
  cases p with
  | put r => exact hf.insert r
  | take h => exact hf.remove h
  | prune => exact hf.sublist f.pruned_sublist.1 f.pruned_sublist.2

theorem InTurn.parts (hf : f.InTurn) (ps : List Part) : (ps.foldl FreeList.part f).InTurn := by
  induction ps generalizing f with
  | nil => exact hf
  | cons p ps ih => exact ih (hf.part p)

theorem InTurn.change (hf : f.InTurn) (c : Change) : (f.change c).InTurn :=
  change_eq f c ▸ hf.parts _

/-- The parts of some changes, one after the other. -/
def course (f : FreeList) : List Change → List Part
  | [] => []
  | c :: cs => c.parts f.get? ++ course (f.change c) cs

/-- The free list after some changes. -/
def changes (f : FreeList) (cs : List Change) : FreeList := cs.foldl change f

theorem changes_eq (f : FreeList) (cs : List Change) :
    f.changes cs = (f.course cs).foldl part f := by
  induction cs generalizing f with
  | nil => rfl
  | cons c cs ih =>
    rw [course, List.foldl_append, ← change_eq, ← ih]
    rfl

/-! ### What was put in and taken out -/

/-- What a part puts in, under the handle given to it. -/
def puts (f : FreeList) : Part → List (Handle × Rect)
  | .put r => [(f.next, r)]
  | .take _ => []
  | .prune => []

/-- The handles that a part takes out: a single one, or all that pruning does not keep. -/
def takes (f : FreeList) : Part → List Handle
  | .put _ => []
  | .take h => if h ∈ f.handles then [h] else []
  | .prune => f.handles.filter fun h => h ∉ f.pruned.handles

/-- All that some parts put in, in order. -/
def putsAlong (f : FreeList) : List Part → List (Handle × Rect)
  | [] => []
  | p :: ps => f.puts p ++ putsAlong (f.part p) ps

/-- All handles that some parts take out. -/
def takesAlong (f : FreeList) : List Part → List Handle
  | [] => []
  | p :: ps => f.takes p ++ takesAlong (f.part p) ps

/-- Whether a free list is what is left of all that was ever put in when some handles are taken out.
The handles were given out one after the other, from zero on. -/
structure LeftOf (f : FreeList) (given : List (Handle × Rect)) (gone : List Handle) : Prop where
  entries : f.entries = given.filter fun e => e.1 ∉ gone
  handles : given.map Prod.fst = List.range f.next
  gone : ∀ h ∈ gone, h < f.next

variable {given : List (Handle × Rect)} {gone : List Handle}

namespace LeftOf

theorem mem_entries (hf : f.LeftOf given gone) :
    (h, r) ∈ f.entries ↔ (h, r) ∈ given ∧ h ∉ gone := by
  simp [hf.entries]

theorem inTurn (hf : f.LeftOf given gone) : f.InTurn := by
  have hascending : given.Pairwise fun d e => d.1 < e.1 := by
    rw [← List.pairwise_map (f := Prod.fst) (R := (· < ·)), hf.handles]
    exact List.pairwise_lt_range
  refine ⟨hf.entries ▸ hascending.filter _, fun e he => ?_⟩
  have hmem : e.1 ∈ given.map Prod.fst := List.mem_map_of_mem (hf.mem_entries.1 he).1
  rwa [hf.handles, List.mem_range] at hmem

theorem get?_eq_some_iff (hf : f.LeftOf given gone) :
    f.get? h = some r ↔ (h, r) ∈ given ∧ h ∉ gone := by
  rw [hf.inTurn.get?_eq_some_iff, hf.mem_entries]

/-- What is taken out is not found anymore. -/
theorem get?_gone (hf : f.LeftOf given gone) (hgone : h ∈ gone) : f.get? h = none :=
  Option.eq_none_iff_forall_ne_some.2 fun _ hr => (hf.get?_eq_some_iff.1 hr).2 hgone

/-- Some handles are taken out of what is left. -/
theorem dropped {dropped : List Handle} (hf : f.LeftOf given gone)
    (hentries : g.entries = f.entries.filter fun e => e.1 ∉ dropped) (hnext : g.next = f.next)
    (hdropped : ∀ h ∈ dropped, h ∈ f.handles) : g.LeftOf given (gone ++ dropped) where
  entries := by
    rw [hentries, hf.entries, List.filter_filter]
    refine List.filter_congr fun e _ => ?_
    rw [Bool.eq_iff_iff]
    simp [and_comm]
  handles := hnext ▸ hf.handles
  gone := by
    rw [List.forall_mem_append, hnext]
    refine ⟨hf.gone, fun h hh => ?_⟩
    obtain ⟨r, hr⟩ := mem_handles_iff.1 (hdropped h hh)
    exact hf.inTurn.below _ hr

theorem insert (hf : f.LeftOf given gone) (r : Rect) :
    (f.insert r).LeftOf (given ++ [(f.next, r)]) gone where
  entries := by
    have hnew : f.next ∉ gone := fun hgone => Nat.lt_irrefl _ (hf.gone _ hgone)
    simp [FreeList.insert, hf.entries, hnew]
  handles := by
    simp [FreeList.insert, hf.handles, List.range_succ]
  gone h hgone := Nat.lt_succ_of_lt (hf.gone h hgone)

theorem remove (hf : f.LeftOf given gone) (h : Handle) :
    (f.remove h).LeftOf given (gone ++ f.takes (.take h)) := by
  refine hf.dropped (List.filter_congr fun e he => ?_) rfl fun k hk => ?_
  · have hmem : e.1 ∈ f.handles := List.mem_map_of_mem he
    by_cases hh : h ∈ f.handles
    · simp [takes, hh]
    · have hne : e.1 ≠ h := fun heq => hh (heq ▸ hmem)
      simp [takes, hh, hne]
  · simp only [takes] at hk
    split at hk
    next hh => exact List.mem_singleton.1 hk ▸ hh
    next => cases hk

theorem pruned (hf : f.LeftOf given gone) :
    f.pruned.LeftOf given (gone ++ f.takes .prune) := by
  obtain ⟨hsub, hnext⟩ := f.pruned_sublist
  refine hf.dropped ?_ hnext fun h hh => (List.mem_filter.1 hh).1
  rw [← filter_handles_eq hsub hf.inTurn.nodup]
  refine List.filter_congr fun e he => ?_
  have hmem : e.1 ∈ f.handles := List.mem_map_of_mem he
  change decide (e.1 ∈ f.pruned.handles) = _
  simp [takes, hmem]

/-- One part puts in and takes out what it says. -/
theorem part (hf : f.LeftOf given gone) (p : Part) :
    (f.part p).LeftOf (given ++ f.puts p) (gone ++ f.takes p) := by
  cases p with
  | put r =>
    rw [takes, List.append_nil]
    exact hf.insert r
  | take h =>
    rw [puts, List.append_nil]
    exact hf.remove h
  | prune =>
    rw [puts, List.append_nil]
    exact hf.pruned

theorem parts (hf : f.LeftOf given gone) (ps : List Part) :
    (ps.foldl FreeList.part f).LeftOf (given ++ f.putsAlong ps) (gone ++ f.takesAlong ps) := by
  induction ps generalizing f given gone with
  | nil => simpa [putsAlong, takesAlong] using hf
  | cons p ps ih => simpa [putsAlong, takesAlong] using ih (hf.part p)

end LeftOf

theorem leftOf_single (r : Rect) : (single r).LeftOf [(0, r)] [] := by
  constructor <;> simp [single, insert, empty]

/-- All that was put into a list that started with one rectangle. -/
def issued (r : Rect) (cs : List Change) : List (Handle × Rect) :=
  (0, r) :: (single r).putsAlong ((single r).course cs)

/-- All handles that some changes take out. -/
def taken (f : FreeList) (cs : List Change) : List Handle := f.takesAlong (f.course cs)

theorem leftOf_changes (r : Rect) (cs : List Change) :
    ((single r).changes cs).LeftOf (issued r cs) ((single r).taken cs) := by
  rw [changes_eq]
  exact (leftOf_single r).parts _

/-- A handle leads to what was put in under it as long as it is not taken out. -/
theorem LeftOf.get?_put (hf : f.LeftOf given gone) (r : Rect) (cs : List Change) :
    ((f.insert r).changes cs).get? f.next =
      if f.next ∈ (f.insert r).taken cs then none else some r := by
  have hleft := (hf.insert r).parts ((f.insert r).course cs)
  rw [← changes_eq] at hleft
  split
  next hgone => exact hleft.get?_gone (List.mem_append_right _ hgone)
  next hlive =>
    have hnew : f.next ∉ gone := fun h => Nat.lt_irrefl _ (hf.gone _ h)
    refine hleft.get?_eq_some_iff.2 ⟨by simp, ?_⟩
    rw [List.mem_append]
    exact not_or.2 ⟨hnew, hlive⟩

end FreeList

end Guillotine
