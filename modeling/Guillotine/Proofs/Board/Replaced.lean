import Guillotine.Proofs.Board.BestFit
import Guillotine.Proofs.Board.Tiling
import Guillotine.Proofs.Plan.Run

/-! What is free on a sheet from one placement to the next. The free rectangles of a sheet on which
solid items were placed are never empty and keep apart, so pruning finds none within another one.
What a placement does to the free list is therefore all said by the split: the free rectangle used
is taken out, the others stay in order under their handles, and the kept parts of the split follow
in order under the next handles. -/
namespace Guillotine

namespace FreeList

/-- Rectangles under the handles from `h` on, in order. -/
def entriesFrom (h : Handle) (rs : List Rect) : List (Handle × Rect) :=
  (rs.zipIdx h).map Prod.swap

theorem entriesFrom_cons (h : Handle) (r : Rect) (rs : List Rect) :
    entriesFrom h (r :: rs) = (h, r) :: entriesFrom (h + 1) rs := rfl

/-- Rectangles that are inserted follow those that are there, under the next handles. -/
theorem insertAll_eq (f : FreeList) (rs : List Rect) :
    f.insertAll rs = ⟨f.entries ++ entriesFrom f.next rs, f.next + rs.length⟩ := by
  induction rs generalizing f with
  | nil =>
    rw [entriesFrom, List.zipIdx_nil, List.map_nil, List.append_nil]
    rfl
  | cons r rs ih =>
    change (f.insert r).insertAll rs = _
    rw [ih, insert, entriesFrom_cons, List.append_assoc, List.singleton_append, List.length_cons,
      Nat.add_assoc, Nat.add_comm 1]

end FreeList

namespace Board

variable {b b' : Board} {i : Item} {spot : Spot} {used : Rect} {p : Placement} {m : Material}
  {index : UInt64} {saw : Saw} {s : Settings}

/-! ### One placement -/

/-- The parts that are kept of the free rectangle `used` when a spot in it is used. -/
def kept (b : Board) (spot : Spot) (used : Rect) : List Rect :=
  b.cutting.rule.splitKept (Put.corner b spot used) b.cutting.leastSide

/-- Whether a placement that leads to the sheet `b'` has replaced a free rectangle by the kept parts
of its split, and changed nothing else of what is free. -/
structure Replaced (b : Board) (spot : Spot) (used : Rect) (b' : Board) : Prop where
  /-- Pruning drops nothing of what is free once the spot is used. -/
  pruned : (b.unpruned spot used).prune = .ok (b.unpruned spot used)
  /-- This is what the commitment leaves. -/
  committed : b.free.commit spot.handle spot.orientation.width spot.orientation.height b.cutting =
    (b.unpruned spot used, .ok used)
  /-- The free list without the rectangle used, followed by the kept parts. -/
  entries : ∃ before after, b.free.entries = before ++ (spot.handle, used) :: after ∧
    b'.free.entries =
      before ++ after ++ FreeList.entriesFrom b.free.next (b.kept spot used)
  next : b'.free.next = b.free.next + (b.kept spot used).length

/-- Putting a solid item on a sheet in order replaces the free rectangle used. -/
theorem Put.replaced (h : Put b i spot used b' p) (hi : i.Solid) (hb : b.Ready) :
    b.Replaced spot used b' := by
  have hfree : b'.free = b.unpruned spot used := h.free_eq hi hb.toFeasible
  have hcommitted := h.committed
  rw [hfree] at hcommitted
  obtain ⟨before, after, hentries⟩ :=
    List.append_of_mem (FreeList.mem_entries_of_get? hcommitted.found)
  -- No other entry has the handle of the one used, so that it is the only one removed.
  have hrest := (hb.named.remove_entries hentries).2
  have hunpruned : b.unpruned spot used =
      ⟨before ++ after ++ FreeList.entriesFrom b.free.next (b.kept spot used),
        b.free.next + (b.kept spot used).length⟩ := by
    rw [unpruned, FreeList.insertAll_eq, hrest]
    rfl
  refine ⟨hcommitted.pruned, FreeList.commit_eq_ok_iff.2 hcommitted,
    ⟨before, after, hentries, ?_⟩, ?_⟩
  · rw [hfree, hunpruned]
  · rw [hfree, hunpruned]

/-- Whether placing an item prunes nothing: if there is a spot for it, whoever watches, a free
rectangle is replaced by the kept parts of its split; else the sheet stays as it is. -/
structure PrunesNothing (b : Board) (i : Item) : Prop where
  taken : ∀ spot, b.free.findSpot i = some spot → ∃ used b' p,
    (∀ v, ((b.place i).record v).2 = .ok (some (b', p))) ∧ b.Replaced spot used b'
  left : b.free.findSpot i = none → ∀ v, ((b.place i).record v).2 = .ok none

theorem Ready.prunesNothing (hb : b.Ready) (hi : i.Solid) : b.PrunesNothing i := by
  constructor
  · intro spot hs
    obtain ⟨used, b', p, hput⟩ := hb.bounded.exists_put hs
    have hreturns := place_returns_some_iff.2 ⟨spot, used, hput⟩
    exact ⟨used, b', p, fun v => (quiet_place b i v).trans hreturns, hput.replaced hi hb⟩
  · intro hs v
    exact (quiet_place b i v).trans (place_returns_none_iff.2 hs)

/-! ### Placements in a row -/

/-- Whatever solid items are placed on a new sheet, it is in order. -/
theorem Reached.ready {items : List Item} (h : Reached m saw s items b)
    (hsolid : ∀ i ∈ items, i.Solid) : b.Ready :=
  ⟨h.feasible hsolid, h.named⟩

end Board

/-- Whatever solid items are offered to a new sheet one after the other, whoever watches, placing
the next one prunes nothing: a free rectangle that is used is replaced by the kept parts of its
split, in order, and the others stay as they are. -/
theorem fill_prunesNothing {m : Material} {index : UInt64} {saw : Saw} {s : Settings} {b : Board}
    {items : List Item} (h : Board.opened m index saw s = .ok b) (hsolid : ∀ i ∈ items, i.Solid) :
    ∃ b' rest, (∀ v, ((Packer.fill b items).record v).2 = .ok (b', rest)) ∧
      ∀ i : Item, i.Solid → b'.PrunesNothing i := by
  obtain ⟨b', rest, hfill, -⟩ := Packer.fill_returns (Board.bounded_opened h) items
  obtain ⟨taken, hreached, hperm, -⟩ := Packer.fill_spec hfill (.opened h)
  have hready : b'.Ready := hreached.ready fun i hi =>
    hsolid i (hperm.subset (List.mem_append_left _ hi))
  exact ⟨b', rest, fun v => (Packer.quiet_fill b items v).trans hfill, fun i hi =>
    hready.prunesNothing hi⟩

/-- A sheet with trims all around. -/
def panel : Material := ⟨"panel", 120, 80, 18, 2, none⟩

def panelSaw : Saw := ⟨5, 10, 10, 10, 10⟩

def panelSide : Item := ⟨"side", "panel", 50, 20, false, 0, none, none⟩

def panelLid : Item := ⟨"lid", "panel", 20, 61, false, 0, none, none⟩

def panelShelf : Item := ⟨"shelf", "panel", 40, 30, false, 0, none, none⟩

def panelBoard : Board :=
  ⟨panel, 1, ⟨10, 10, 100, 60⟩, .single ⟨10, 10, 100, 60⟩, [], ⟨5, .shorterLeftoverAxis, 1⟩⟩

/-- The panel with its side, next to two free rectangles. -/
def panelFilled : Board :=
  { panelBoard with
    free := ⟨[(1, ⟨10, 35, 50, 35⟩), (2, ⟨65, 10, 45, 60⟩)], 3⟩
    placed := [⟨"side", none, 10, 10, 50, 20, false⟩] }

/-- The panel with its shelf in the first of these, next to the second one and a new one. -/
def panelShelved : Board :=
  { panelFilled with
    free := ⟨[(2, ⟨65, 10, 45, 60⟩), (3, ⟨55, 35, 5, 35⟩)], 4⟩
    placed := panelFilled.placed ++ [⟨"shelf", none, 10, 35, 40, 30, false⟩] }

theorem fill_prunesNothing_panel :
    Board.opened panel 1 panelSaw .standard = .ok panelBoard ∧
      (∀ i ∈ [panelSide, panelLid], i.Solid) ∧ panelShelf.Solid ∧
      (∀ v, ((Packer.fill panelBoard [panelSide, panelLid]).record v).2 =
        .ok (panelFilled, [panelLid])) ∧
      ∃ used, panelFilled.Replaced ⟨1, ⟨40, 30, false⟩, 550⟩ used panelShelved := by
  have hopened : Board.opened panel 1 panelSaw .standard = .ok panelBoard := rfl
  have hsolid : (∀ i ∈ [panelSide, panelLid], i.Solid) ∧ panelShelf.Solid := by
    unfold Item.Solid
    decide
  have hfilled : ∀ v, ((Packer.fill panelBoard [panelSide, panelLid]).record v).2 =
      .ok (panelFilled, [panelLid]) := fun v => (Packer.quiet_fill _ _ v).trans rfl
  have hshelved : ∀ v, ((panelFilled.place panelShelf).record v).2 =
      .ok (some (panelShelved, ⟨"shelf", none, 10, 35, 40, 30, false⟩)) :=
    fun v => (Board.quiet_place _ _ v).trans rfl
  obtain ⟨b', rest, hfill, hnext⟩ := fill_prunesNothing hopened hsolid.1
  obtain ⟨rfl, -⟩ := Prod.mk.inj (Except.ok.inj ((hfill none).symm.trans (hfilled none)))
  obtain ⟨used, b', p, hplace, hreplaced⟩ := (hnext panelShelf hsolid.2).taken _ rfl
  obtain ⟨rfl, -⟩ := Prod.mk.inj
    (Option.some.inj (Except.ok.inj ((hplace none).symm.trans (hshelved none))))
  exact ⟨hopened, hsolid.1, hsolid.2, hfilled, used, hreplaced⟩

end Guillotine
