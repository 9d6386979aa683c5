import Guillotine.Board.Layout
import Guillotine.Journal

/-! The audit of a finished sheet: all items lie inside the usable region, no two are closer than
the kerf, and items and remainders claim no more than the usable area. A violation is written to
the journal. -/
namespace Guillotine

namespace Audit

/-- Whether two placements are closer to each other than the kerf, the first one being widened
first. -/
def tooClose (kerf : Length) (a b : Placement) : Checked Bool := do
  if ← (a.rect.grown kerf kerf).overlaps b.rect then return true
  (b.rect.grown kerf kerf).overlaps a.rect

/-- The first placement of a list that is too close to `a`. -/
def firstTooClose (kerf : Length) (a : Placement) : List Placement → Checked (Option Placement)
  | [] => .ok none
  | b :: bs => do
    if ← tooClose kerf a b then return some b
    firstTooClose kerf a bs

/-- The first pair of placements that are too close, in order of the list. -/
def firstClosePair (kerf : Length) :
    List Placement → Checked (Option (Placement × Placement))
  | [] => .ok none
  | a :: as => do
    match ← firstTooClose kerf a as with
    | some b => return some (a, b)
    | none => firstClosePair kerf as

/-- Whether any two placements are at least the kerf apart. -/
def keepsApart (placed : List Placement) (kerf : Length) : Logged Bool := do
  match ← firstClosePair kerf placed with
  | none => return true
  | some (a, b) =>
    Logged.note .error fun _ => String.join
      ["pieces ", a.item, " ", a.rect.describe, " and ", b.item, " ", b.rect.describe,
        " are less than the kerf (", toString kerf, ") apart"]
    return false

/-- The first placement that is not inside the usable region. -/
def firstOutside (usable : Rect) : List Placement → Checked (Option Placement)
  | [] => .ok none
  | p :: ps => do
    if ← usable.contains p.rect then firstOutside usable ps else return some p

/-- Whether all placements are inside the usable region. -/
def staysInside (placed : List Placement) (usable : Rect) : Logged Bool := do
  match ← firstOutside usable placed with
  | none => return true
  | some p =>
    Logged.note .error fun _ => String.join
      ["piece ", p.item, " ", p.rect.describe, " exceeds usable region ", usable.describe]
    return false

/-- Whether items and remainders together claim no more than the usable area. -/
def conservesArea (l : Layout) : Checked Bool := do
  let used ← l.usedArea
  let free ← Area.sum (l.remainders.map Rect.area)
  return (← Area.add used free) ≤ l.usable.area

/-- Whether all of some rectangles lie within the usable region. -/
def allInside (usable : Rect) : List Rect → Checked Bool
  | [] => .ok true
  | r :: rs => do
    if ← usable.contains r then allInside usable rs else return false

/-- The whole audit. Each question is asked only if the ones before were answered yes. -/
def passes (l : Layout) (kerf : Length) : Logged Bool := do
  unless ← staysInside l.placed l.usable do return false
  unless ← keepsApart l.placed kerf do return false
  unless ← conservesArea l do return false
  allInside l.usable l.remainders

end Audit

end Guillotine
