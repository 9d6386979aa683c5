import Guillotine.Proofs.Board.Changes
import Guillotine.Table

/-! Free lists in two parts. The free rectangles can be kept in an arena, in which each is found
under its handle, and beside it the handles in order of insertion. Every change has to update both.
They never drift apart, whatever changes are made and in whatever order: the arena goes in step with
the free list, and both show just what was put in and not taken out since. -/
namespace Guillotine

/-- A free list in two parts. -/
structure Arena where
  /-- The free rectangles under their handles. -/
  slots : Table Handle Rect
  /-- The handles in order of insertion. -/
  order : List Handle
  /-- The next handle to give out. -/
  next : Handle

namespace Arena

open FreeList (Change Part)

def empty : Arena := ⟨.empty, [], 0⟩

def get? (a : Arena) (h : Handle) : Option Rect := a.slots.get? h

def put (a : Arena) (r : Rect) : Arena :=
  ⟨a.slots.insert a.next r, a.order ++ [a.next], a.next + 1⟩

/-- One free rectangle. -/
def single (r : Rect) : Arena := empty.put r

/-- Take out the rectangle under a handle, if there is one. -/
def take (a : Arena) (h : Handle) : Arena :=
  match a.get? h with
  | none => a
  | some _ => { a with slots := a.slots.erase h, order := a.order.filter fun k => k ≠ h }

/-- The rectangle under a handle, with the handle, which has to lead to one. -/
def entry (a : Arena) (h : Handle) : Checked (Handle × Rect) :=
  match a.get? h with
  | none => .error .staleHandle
  | some r => .ok (h, r)

/-- The rectangles in order, with their handles. -/
def entries (a : Arena) : Checked (List (Handle × Rect)) := a.order.mapM a.entry

/-- The handles of those entries that some entry of `all` covers. -/
def covered (all : List (Handle × Rect)) : List (Handle × Rect) → Checked (List Handle)
  | [] => .ok []
  | (h, r) :: es => do
    let here ← FreeList.isCovered h r all
    let rest ← covered all es
    return if here then h :: rest else rest

/-- Find what lies within other rectangles, then take it out. -/
def prune (a : Arena) : Checked Arena := do
  let es ← a.entries
  return (← covered es es).foldl take a

/-- A pruned arena, or the arena as it was if pruning it faults. -/
def pruned (a : Arena) : Arena :=
  match a.prune with
  | .ok b => b
  | .error _ => a

def part (a : Arena) : Part → Arena
  | .put r => a.put r
  | .take h => a.take h
  | .prune => a.pruned

def change (a : Arena) (c : Change) : Arena := (c.parts a.get?).foldl part a

def changes (a : Arena) (cs : List Change) : Arena := cs.foldl change a

/-! ### In step with a free list -/

variable {a : Arena} {f : FreeList} {h : Handle}

/-- Whether an arena shows what a free list shows. -/
structure Pictures (a : Arena) (f : FreeList) : Prop where
  order : a.order = f.handles
  next : a.next = f.next
  found : ∀ h, a.get? h = f.get? h

namespace Pictures

theorem put (ha : a.Pictures f) (hf : f.InTurn) (r : Rect) : (a.put r).Pictures (f.insert r) where
  order := by simp [Arena.put, FreeList.insert, FreeList.handles, ha.order, ha.next]
  next := congrArg (· + 1) ha.next
  found h := by
    rw [hf.get?_insert, ← ha.found, ← ha.next]
    exact Table.get?_insert ..

theorem take (ha : a.Pictures f) (hf : f.InTurn) (h : Handle) :
    (a.take h).Pictures (f.remove h) := by
  unfold Arena.take
  split
  next hnone =>
    rw [ha.found] at hnone
    rwa [hf.remove_eq hnone]
  next r hr =>
    refine ⟨?_, ha.next, fun k => ?_⟩
    · simp [FreeList.handles, FreeList.remove, ha.order, List.filter_map, Function.comp_def]
    · rw [hf.get?_remove, ← ha.found]
      exact Table.get?_erase ..

theorem takeAll (ha : a.Pictures f) (hf : f.InTurn) (hs : List Handle) :
    (hs.foldl Arena.take a).Pictures (hs.foldl FreeList.remove f) := by
  induction hs generalizing a f with
  | nil => exact ha
  | cons h hs ih => exact ih (ha.take hf h) (hf.remove h)

/-- Every handle of the order leads to a rectangle. -/
theorem entries (ha : a.Pictures f) (hf : f.InTurn) : a.entries = .ok f.entries := by
  have hread : ∀ e ∈ f.entries, ∃ d, a.entry e.1 = .ok d ∧ d = e := fun e he => by
    refine ⟨e, ?_, rfl⟩
    rw [entry, ha.found, hf.get?_eq_some_iff.2 he]
  obtain ⟨es, hes, heq⟩ := exists_mapM (g := id) (k := id) hread
  rw [List.map_id, List.map_id] at heq
  rw [Arena.entries, ha.order, FreeList.handles, List.mapM_map]
  exact heq ▸ hes

end Pictures

theorem pictures_single (r : Rect) : (single r).Pictures (.single r) :=
  have hempty : empty.Pictures .empty := ⟨rfl, rfl, fun _ => rfl⟩
  hempty.put ⟨.nil, by simp [FreeList.empty]⟩ r

/-! ### Pruning in two parts -/

/-- What is covered has a handle of the list. -/
theorem mem_of_covered {all es : List (Handle × Rect)} {hs : List Handle}
    (hc : covered all es = .ok hs) : ∀ h ∈ hs, h ∈ es.map Prod.fst := by
  induction es generalizing hs with
  | nil =>
    cases hc
    simp
  | cons e es ih =>
    simp only [covered] at hc
    obtain ⟨here, -, hc⟩ := bind_eq_ok_iff.1 hc
    obtain ⟨rest, hrest, hc⟩ := bind_eq_ok_iff.1 hc
    obtain rfl := Except.ok.inj hc
    have hmem : ∀ h ∈ rest, h ∈ (e :: es).map Prod.fst := fun h hh =>
      List.mem_cons_of_mem _ (ih hrest h hh)
    split
    · exact List.forall_mem_cons.2 ⟨List.mem_cons_self, hmem⟩
    · exact hmem

/-- What is not covered is the rest. -/
theorem uncovered_eq {all es : List (Handle × Rect)} (hn : (es.map Prod.fst).Nodup) :
    FreeList.uncovered all es =
      (covered all es).map fun hs => es.filter fun e => e.1 ∉ hs := by
  induction es with
  | nil => rfl
  | cons e es ih =>
    obtain ⟨hnew, hn⟩ := List.nodup_cons.1 hn
    simp only [FreeList.uncovered, covered, ih hn]
    cases FreeList.isCovered e.1 e.2 all with
    | error _ => rfl
    | ok here =>
      cases hrest : covered all es with
      | error _ => rfl
      | ok hs =>
        have hfree : e.1 ∉ hs := fun h => hnew (mem_of_covered hrest _ h)
        have hrest : (es.filter fun d => d.1 ∉ e.1 :: hs) = es.filter fun d => d.1 ∉ hs :=
          List.filter_congr fun d hd => by
            have hne : d.1 ≠ e.1 := fun h => hnew (h ▸ List.mem_map_of_mem hd)
            simp [hne]
        cases here with
        | false =>
          change Except.ok _ = Except.ok _
          simp [hfree]
        | true =>
          change Except.ok _ = Except.ok _
          simp only [if_true]
          rw [List.filter_cons_of_neg (by simp), hrest]

/-- Removing handles one by one leaves the other entries. -/
theorem foldl_remove (f : FreeList) (hs : List Handle) :
    hs.foldl FreeList.remove f = { f with entries := f.entries.filter fun e => e.1 ∉ hs } := by
  induction hs generalizing f with
  | nil => simp
  | cons h hs ih =>
    rw [List.foldl_cons, ih]
    simp only [FreeList.remove, List.filter_filter, FreeList.mk.injEq, and_true]
    refine List.filter_congr fun e _ => ?_
    simp [Bool.and_comm]

/-- Pruning takes out what is covered, one handle after the other. -/
theorem prune_eq (hf : f.InTurn) :
    f.prune = (covered f.entries f.entries).map fun hs => hs.foldl FreeList.remove f := by
  rw [FreeList.prune, uncovered_eq hf.nodup]
  cases covered f.entries f.entries with
  | error _ => rfl
  | ok hs => exact congrArg Except.ok (foldl_remove f hs).symm

theorem Pictures.prune_eq (ha : a.Pictures f) (hf : f.InTurn) :
    a.prune = (covered f.entries f.entries).map fun hs => hs.foldl Arena.take a := by
  rw [Arena.prune, ha.entries hf]
  rfl

theorem Pictures.pruned (ha : a.Pictures f) (hf : f.InTurn) : a.pruned.Pictures f.pruned := by
  rw [Arena.pruned, FreeList.pruned, ha.prune_eq hf, Arena.prune_eq hf]
  cases covered f.entries f.entries with
  | error _ => exact ha
  | ok hs => exact ha.takeAll hf hs

theorem Pictures.part (ha : a.Pictures f) (hf : f.InTurn) (p : Part) :
    (a.part p).Pictures (f.part p) := by
  cases p with
  | put r => exact ha.put hf r
  | take h => exact ha.take hf h
  | prune => exact ha.pruned hf

theorem Pictures.parts (ha : a.Pictures f) (hf : f.InTurn) (ps : List Part) :
    (ps.foldl Arena.part a).Pictures (ps.foldl FreeList.part f) := by
  induction ps generalizing a f with
  | nil => exact ha
  | cons p ps ih => exact ih (ha.part hf p) (hf.part p)

theorem Pictures.changes (ha : a.Pictures f) (hf : f.InTurn) (cs : List Change) :
    (a.changes cs).Pictures (f.changes cs) := by
  induction cs generalizing a f with
  | nil => exact ha
  | cons c cs ih =>
    have hstep : (a.change c).Pictures (f.change c) := by
      rw [FreeList.change_eq, ← funext ha.found]
      exact ha.parts hf _
    exact ih hstep (hf.change c)

/-! ### What both parts show -/

variable {given : List (Handle × Rect)} {gone : List Handle}

/-- Whether the two parts of an arena agree with each other, with a free list and with its history:
all of `given` was put in, in this order, and `gone` was taken out. -/
structure Tracks (a : Arena) (f : FreeList) (given : List (Handle × Rect)) (gone : List Handle) :
    Prop where
  order_nodup : a.order.Nodup
  mem_order : ∀ h, h ∈ a.order ↔ (a.get? h).isSome
  entries : a.entries = .ok f.entries
  found : ∀ h, a.get? h = f.get? h
  inserted : f.entries = given.filter fun e => e.1 ∉ gone
  given_nodup : (given.map Prod.fst).Nodup
  found_iff : ∀ h r, f.get? h = some r ↔ (h, r) ∈ given ∧ h ∉ gone

theorem Pictures.tracks (ha : a.Pictures f) (hf : f.LeftOf given gone) : a.Tracks f given gone where
  order_nodup := ha.order ▸ hf.inTurn.nodup
  mem_order h := by rw [ha.order, ha.found, hf.inTurn.mem_handles]
  entries := ha.entries hf.inTurn
  found := ha.found
  inserted := hf.entries
  given_nodup := hf.handles ▸ List.nodup_range
  found_iff _ _ := hf.get?_eq_some_iff

/-- Whatever changes a free list and its arena go through, the order holds the handles of all free
rectangles and no others, each once. The rectangles come in the order in which they were put in. A
handle given out leads to its rectangle until the rectangle is taken out, and never to another one
after that. -/
theorem tracks_changes (r : Rect) (cs : List Change) :
    let f := (FreeList.single r).changes cs
    ((single r).changes cs).Tracks f (FreeList.issued r cs) ((FreeList.single r).taken cs) ∧
    (∀ s ds, ((f.insert s).changes ds).get? f.next =
      if f.next ∈ (f.insert s).taken ds then none else some s) ∧
    ∀ h ∈ (FreeList.single r).taken cs, ∀ ds, (f.changes ds).get? h = none := by
  intro f
  have hf : f.LeftOf (FreeList.issued r cs) ((FreeList.single r).taken cs) :=
    FreeList.leftOf_changes r cs
  have ha : ((single r).changes cs).Pictures f :=
    (pictures_single r).changes (FreeList.inTurn_single r) cs
  refine ⟨ha.tracks hf, fun s ds => hf.get?_put s ds, fun h hgone ds => ?_⟩
  have hlater := hf.parts (f.course ds)
  rw [← FreeList.changes_eq] at hlater
  exact hlater.get?_gone (List.mem_append_left _ hgone)

end Arena

end Guillotine
