import Guillotine.Board.Filling
import Guillotine.Calendar.Duration
import Guillotine.Decimal.Fixed
import Guillotine.Plan.Basic

/-! Packing a demand. The pieces are checked first, one by one. Their copies are ranked by priority
and area and grouped by material. For each material, sheets are opened one after the other, and
every item still waiting is offered to the open sheet once, in rank order; a sheet that takes none
ends the work on its material. -/
namespace Guillotine

/-- A step of packing: it may turn the demand down, and it keeps a journal. -/
abbrev Packing := ExceptT Rejection Logged

namespace Packer

/-! ### Checking the demand -/

/-- Check pieces from the first to the last. The answer are the materials they need, each checked
once, when first needed; `known` are those checked before. -/
def check (catalog : Catalog) (saw : Saw) :
    List Material → List Piece → Except Rejection (List Material)
  | known, [] => .ok known
  | known, p :: ps => do
    p.validate
    match catalog p.material with
    | none => .error (.unknownMaterial p.id p.material)
    | some m =>
      if known.any fun k => k.code = m.code then check catalog saw known ps
      else do
        m.validate
        let _ ← saw.usable m
        check catalog saw (known ++ [m]) ps

/-- Check a whole demand. -/
def checkAll (catalog : Catalog) (saw : Saw) (pieces : List Piece) :
    Except Rejection (List Material) :=
  if pieces.isEmpty then .error .nothingDemanded else check catalog saw [] pieces

/-! ### Ranking and grouping -/

/-- Whether `a` is offered before `b`, or they are ranked alike: higher priority, then larger
area. -/
def ranksAtLeast (a b : Item) : Bool :=
  b.priority < a.priority || (a.priority == b.priority && b.area ≤ a.area)

/-- All copies of all pieces in rank order; equal ranks stay in the order of the demand. -/
def ranked (pieces : List Piece) : List Item :=
  (pieces.flatMap Piece.copies).mergeSort ranksAtLeast

/-- The codes of some items in order of first appearance, each with its items. -/
def grouped (items : List Item) : List (String × List Item) :=
  (items.map Item.material).eraseDups.map fun code =>
    (code, items.filter fun i => i.material = code)

/-! ### Filling sheets -/

/-- Offer items to a sheet, each once. The answer is the filled sheet and the items that it did not
take. -/
def fill (b : Board) : List Item → Logged (Board × List Item)
  | [] => pure (b, [])
  | i :: items => do
    match ← b.place i with
    | some (b, p) =>
      Logged.note .debug fun _ => String.join
        ["[OPT] placed ", p.item, " at (", toString p.x, ", ", toString p.y, ") on ",
          b.material.code, "#", toString b.index, if p.rotated then " (rotated)" else ""]
      fill b items
    | none =>
      let (b, rest) ← fill b items
      return (b, i :: rest)

/-- Open up to `allowed` sheets, the first one with number `index`, until no item waits or a sheet
takes none. The answer are the finished sheets and the items still waiting. -/
def fillSheets (m : Material) (saw : Saw) (s : Settings) :
    (allowed index : Nat) → List Item → Packing (List Layout × List Item)
  | 0, _, waiting => return ([], waiting)
  | allowed + 1, index, waiting =>
    if waiting.isEmpty then return ([], [])
    else do
      let b ← ExceptT.mk (pure (Board.opened m (UInt64.ofNat index) saw s))
      let (b, rest) ← fill b waiting
      if b.placed.isEmpty then return ([], rest)
      let layout ← b.finish
      let (layouts, rest) ← fillSheets m saw s allowed (index + 1) rest
      return (layout :: layouts, rest)

/-- Pack the items of one material. Those that fit no empty sheet are set aside first. -/
def packMaterial (m : Material) (saw : Saw) (s : Settings) (items : List Item) :
    Packing (List Layout × List Item) := do
  let usable ← ExceptT.mk (pure (saw.usable m))
  let (waiting, never) := items.partition fun i => i.fitsIn usable
  never.forM fun i => Logged.note .debug fun _ => String.join
    ["[OPT] ", i.id, " (", toString i.width, "x", toString i.height,
      ") can never fit on material ", m.code]
  let (layouts, left) ← fillSheets m saw s s.maxSheets.toNat 1 waiting
  unless left.isEmpty do
    Logged.note .info fun _ => String.join
      ["[OPT] ", toString left.length, " piece(s) of material ", m.code, " left unplaced after ",
        toString layouts.length, " sheet(s)"]
  return (layouts, never ++ left)

/-- Pack groups of items one after the other, each with its material of `known`. -/
def packGroups (known : List Material) (saw : Saw) (s : Settings) :
    List (String × List Item) → Packing Plan
  | [] => return ⟨[], []⟩
  | (code, items) :: groups => do
    match known.find? fun m => m.code = code with
    | none => Logged.fault (α := Plan) .unknownCode
    | some m =>
      let (layouts, left) ← packMaterial m saw s items
      let rest ← packGroups known saw s groups
      return ⟨layouts ++ rest.layouts, left ++ rest.unplaced⟩

end Packer

open Packer in
/-- Pack a demand. -/
def pack (s : Settings) (catalog : Catalog) (saw : Saw) (pieces : List Piece) : Packing Plan := do
  let known ← ExceptT.mk (pure (checkAll catalog saw pieces))
  let items := ranked pieces
  Logged.noteChecked .info fun _ => do
    let total ← Area.sum (items.map Item.area)
    return String.join
      ["[OPT] packing ", toString items.length, " unit pieces (", Fixed.withCommas total.toNat,
        " mm² in total) over ", toString known.length, " material(s)"]
  let plan ← packGroups known saw s (grouped items)
  unless plan.accountsFor items.length do Logged.fault .itemsUnaccounted
  return plan

/-- What is said of a plan that took some time to make. -/
def Plan.announce (p : Plan) (elapsed : Duration) : Logged Unit :=
  Logged.noteChecked .info fun _ => do
    let n := p.placedCount
    let efficiency ← p.efficiency
    return String.join
      ["[OPT] finished in ", Fixed.text 3 (elapsed.toFloat * 1000), "ms: ",
        toString p.sheetCount, " sheet(s), ", toString n, "/",
        toString (n + p.unplaced.length), " pieces placed, efficiency ",
        Fixed.text 1 (efficiency * 100), "%"]

/-- Pack a demand and say how it went. -/
def solve (s : Settings) (catalog : Catalog) (saw : Saw) (pieces : List Piece)
    (elapsed : Duration) : Packing Plan := do
  let plan ← pack s catalog saw pieces
  plan.announce elapsed
  return plan

end Guillotine
