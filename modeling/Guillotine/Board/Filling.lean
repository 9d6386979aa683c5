import Guillotine.Board.Audit
import Guillotine.Board.Fit
import Guillotine.Settings

/-! A sheet while it is being filled. Items are placed one after the other, each where it fits
best, and then the sheet is finished: what is free becomes its remainders, and it is audited. -/
namespace Guillotine

structure Board where
  material : Material
  /-- The number of the sheet among those of its material, counted from one. -/
  index : UInt64
  /-- The region inside the trims. -/
  usable : Rect
  free : FreeList
  placed : List Placement
  cutting : FreeList.Cutting

namespace Board

/-- A new sheet of a material. -/
def opened (m : Material) (index : UInt64) (saw : Saw) (s : Settings) :
    Except Rejection Board := do
  let usable ← saw.usable m
  return ⟨m, index, usable, .single usable, [], ⟨saw.kerf, s.rule, s.leastSide⟩⟩

/-- Put an item where it was decided to go. -/
def putAt (b : Board) (i : Item) (s : Spot) : Checked (Board × Placement) :=
  let o := s.orientation
  let (free, used) := b.free.commit s.handle o.width o.height b.cutting
  used.map fun r =>
    let p : Placement := ⟨i.id, i.label, r.x, r.y, o.width, o.height, o.rotated⟩
    ({ b with free, placed := b.placed ++ [p] }, p)

/-- Place an item if it fits anywhere on the sheet. -/
def place (b : Board) (i : Item) : Logged (Option (Board × Placement)) :=
  match b.free.findSpot i with
  | none => pure none
  | some s => do
    Logged.note .trace fun _ => String.join
      ["[PLACE] ", i.id, " on sheet ", b.material.code, "#", toString b.index, " (rotated: ",
        toString s.orientation.rotated, ", leftover: ", toString s.left, ")"]
    return some (← b.putAt i s)

/-- The record of the sheet as it is. -/
def layout (b : Board) : Layout :=
  ⟨b.material, b.index, b.usable, b.placed, b.free.rects⟩

/-- Finish the sheet. It has to pass the audit. -/
def finish (b : Board) : Logged Layout := do
  if ← Audit.passes b.layout b.cutting.kerf then return b.layout
  Logged.fault .layoutRejected

end Board

end Guillotine
