import Guillotine.Proofs.Board.FreeList

/-! The sheets that come about when items are placed one after the other on a new sheet. What one
placement does is said once, as a record of the spot found, the free rectangle used and the sheet
afterwards; what holds of every sheet that comes about follows by induction on the placements. -/
namespace Guillotine

namespace Board

variable {b b' : Board} {i : Item} {p : Placement}

/-- A new sheet has its usable region free and nothing placed. -/
theorem opened_eq_ok_iff {m : Material} {index : UInt64} {saw : Saw} {s : Settings} :
    opened m index saw s = .ok b ↔ ∃ u, saw.usable m = .ok u ∧
      b = ⟨m, index, u, .single u, [], ⟨saw.kerf, s.rule, s.leastSide⟩⟩ := by
  unfold opened
  rw [bind_eq_ok_iff]
  simp only [pure, Except.pure, Except.ok.injEq, eq_comm]

/-! ### One placement -/

/-- What the placement of `i` in a spot has done: the spot was the best one, its free rectangle
`used` was committed, and `p` lies in the corner of it. -/
structure Put (b : Board) (i : Item) (spot : Spot) (used : Rect) (b' : Board) (p : Placement) :
    Prop where
  found : b.free.findSpot i = some spot
  committed : FreeList.Committed b.free spot.handle spot.orientation.width
    spot.orientation.height b.cutting b'.free used
  placement : p = ⟨i.id, i.label, used.x, used.y, spot.orientation.width,
    spot.orientation.height, spot.orientation.rotated⟩
  board : b' = { b with free := b'.free, placed := b.placed ++ [p] }

theorem putAt_eq_ok_iff {spot : Spot} (hs : b.free.findSpot i = some spot) :
    b.putAt i spot = .ok (b', p) ↔ ∃ used, Put b i spot used b' p := by
  unfold putAt
  dsimp only
  constructor
  · intro h
    cases hc : b.free.commit spot.handle spot.orientation.width spot.orientation.height
        b.cutting with
    | mk free used =>
      rw [hc] at h
      cases used with
      | error e => cases h
      | ok used =>
        cases h
        exact ⟨used, hs, FreeList.commit_eq_ok_iff.1 hc, rfl, rfl⟩
  · rintro ⟨used, -, hc, hp, hb⟩
    rw [FreeList.commit_eq_ok_iff.2 hc]
    change Except.ok _ = Except.ok (b', p)
    rw [hb, hp]

/-- Placing returns a sheet just if there is a spot and it was taken. -/
theorem place_returns_some_iff :
    (b.place i).Returns (some (b', p)) ↔ ∃ spot used, Put b i spot used b' p := by
  unfold place
  cases hs : b.free.findSpot i with
  | none =>
    simp only [Logged.returns_pure, reduceCtorEq, false_iff]
    rintro ⟨spot, used, h⟩
    cases hs.symm.trans h.found
  | some spot =>
    dsimp only
    rw [Logged.returns_note_bind, Logged.returns_bind]
    simp only [Logged.returns_lift, Logged.returns_pure, Option.some.injEq]
    constructor
    · rintro ⟨r, hr, rfl⟩
      obtain ⟨used, h⟩ := (putAt_eq_ok_iff hs).1 hr
      exact ⟨spot, used, h⟩
    · rintro ⟨spot', used, h⟩
      obtain rfl : spot = spot' := Option.some.inj (hs.symm.trans h.found)
      exact ⟨(b', p), (putAt_eq_ok_iff hs).2 ⟨used, h⟩, rfl⟩

/-- An item is left over just if it fits nowhere. -/
theorem place_returns_none_iff : (b.place i).Returns none ↔ b.free.findSpot i = none := by
  unfold place
  cases hs : b.free.findSpot i with
  | none => simp
  | some spot => simp [Logged.returns_bind]

/-! ### Placements in a row -/

/-- The sheets of a material that come about by placing items, with the items in order. -/
inductive Reached (m : Material) (saw : Saw) (s : Settings) : List Item → Board → Prop
  | opened {index : UInt64} {b : Board} (h : Board.opened m index saw s = .ok b) :
    Reached m saw s [] b
  | placed {items : List Item} {b b' : Board} {i : Item} {p : Placement}
    (hb : Reached m saw s items b) (h : (b.place i).Returns (some (b', p))) :
    Reached m saw s (items ++ [i]) b'

namespace Reached

variable {m : Material} {saw : Saw} {s : Settings} {items : List Item}

/-- What no placement changes about a sheet. -/
theorem settled (h : Reached m saw s items b) : b.material = m ∧ saw.usable m = .ok b.usable ∧
    b.cutting = ⟨saw.kerf, s.rule, s.leastSide⟩ := by
  induction h with
  | opened h =>
    obtain ⟨u, hu, rfl⟩ := opened_eq_ok_iff.1 h
    exact ⟨rfl, hu, rfl⟩
  | placed _ h ih =>
    obtain ⟨spot, used, hput⟩ := place_returns_some_iff.1 h
    rw [hput.board]
    exact ih

theorem usable_eq (h : Reached m saw s items b) {u : Rect} (hu : saw.usable m = .ok u) :
    b.usable = u :=
  Except.ok.inj (h.settled.2.1.symm.trans hu)

/-- A sheet on which nothing was placed is new. -/
theorem exists_opened (h : Reached m saw s [] b) : ∃ index, Board.opened m index saw s = .ok b := by
  generalize hitems : ([] : List Item) = items at h
  cases h with
  | opened h => exact ⟨_, h⟩
  | placed => simp at hitems

end Reached

end Board

end Guillotine
