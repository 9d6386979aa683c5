import Guillotine.Proofs.Board.Tiling

/-! The free lists that the operations lead to. A new handle is greater than all that were given out
before, new rectangles come last, and what is kept stays in order. So the order of the list, the
order of insertion and the order of the handles are one, whatever was removed in between. -/
namespace Guillotine

namespace FreeList

variable {f g : FreeList} {r : Rect}

/-! ### Handles in turn -/

/-- Whether the handles ascend along the list, and the next one is greater than all of them. -/
structure InTurn (f : FreeList) : Prop where
  ascending : f.entries.Pairwise fun d e => d.1 < e.1
  below : ∀ e ∈ f.entries, e.1 < f.next

theorem InTurn.named (hf : f.InTurn) : f.Named :=
  ⟨List.pairwise_map.2 (hf.ascending.imp fun h => Nat.ne_of_lt h), hf.below⟩

theorem inTurn_single (r : Rect) : (single r).InTurn := by
  constructor <;> simp [single, insert, empty]

theorem InTurn.insert (hf : f.InTurn) (r : Rect) : (f.insert r).InTurn := by
  constructor
  · refine List.pairwise_append.2 ⟨hf.ascending, List.pairwise_singleton _ _, fun e he d hd => ?_⟩
    obtain rfl := List.mem_singleton.1 hd
    exact hf.below e he
  · simp only [FreeList.insert, List.forall_mem_append, List.forall_mem_singleton]
    exact ⟨fun e he => Nat.lt_succ_of_lt (hf.below e he), Nat.lt_succ_self _⟩

theorem InTurn.insertAll (hf : f.InTurn) (rs : List Rect) : (f.insertAll rs).InTurn := by
  induction rs generalizing f with
  | nil => exact hf
  | cons r rs ih => exact ih (hf.insert r)

theorem InTurn.sublist (hf : f.InTurn) (hs : g.entries.Sublist f.entries)
    (hnext : g.next = f.next) : g.InTurn :=
  ⟨hf.ascending.sublist hs, fun e he => hnext ▸ hf.below e (hs.subset he)⟩

theorem InTurn.remove (hf : f.InTurn) (h : Handle) : (f.remove h).InTurn :=
  hf.sublist List.filter_sublist rfl

theorem InTurn.prune (hf : f.InTurn) (hp : f.prune = .ok g) : g.InTurn :=
  hf.sublist (prune_sublist hp).1 (prune_sublist hp).2

/-- A commitment leaves the handles in turn also where it ends in a fault. -/
theorem InTurn.commit (hf : f.InTurn) (h : Handle) (w t : Length) (c : Cutting) :
    (f.commit h w t c).1.InTurn := by
  unfold FreeList.commit
  split
  · exact hf
  · dsimp only
    split
    · split
      next hp => exact ((hf.remove h).insertAll _).prune hp
      next => exact (hf.remove h).insertAll _
    · exact hf.remove h

/-! ### What the operations lead to -/

/-- The free lists that the operations lead to from a list with one free rectangle. A commitment
leads on also where it ends in a fault. -/
inductive Reached : FreeList → Prop
  | single (r : Rect) : Reached (single r)
  | insert {f : FreeList} (hf : Reached f) (r : Rect) : Reached (f.insert r)
  | insertAll {f : FreeList} (hf : Reached f) (rs : List Rect) : Reached (f.insertAll rs)
  | remove {f : FreeList} (hf : Reached f) (h : Handle) : Reached (f.remove h)
  | pruned {f g : FreeList} (hf : Reached f) (hp : f.prune = .ok g) : Reached g
  | committed {f : FreeList} (hf : Reached f) (h : Handle) (w t : Length) (c : Cutting) :
    Reached (f.commit h w t c).1

theorem Reached.inTurn (hf : f.Reached) : f.InTurn := by
  induction hf with
  | single r => exact inTurn_single r
  | insert _ r ih => exact ih.insert r
  | insertAll _ rs ih => exact ih.insertAll rs
  | remove _ h ih => exact ih.remove h
  | pruned _ hp ih => exact ih.prune hp
  | committed _ h w t c ih => exact ih.commit h w t c

end FreeList

end Guillotine
