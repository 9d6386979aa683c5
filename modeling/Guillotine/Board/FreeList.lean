import Guillotine.Plane.Split

/-! The free rectangles of a sheet. Each has a handle, a number that is never used twice, so the
order of the handles is the order of insertion. A piece goes where it leaves the least area free;
the first such rectangle wins. After a placement the parts of the split join the list, and
rectangles that lie within others are pruned. -/
namespace Guillotine

/-- The name of a free rectangle. -/
abbrev Handle := Nat

structure FreeList where
  /-- The free rectangles in order of insertion. -/
  entries : List (Handle × Rect)
  /-- The next handle to give out. -/
  next : Handle
deriving DecidableEq, Repr

namespace FreeList

/-- No free rectangle. -/
def empty : FreeList := ⟨[], 0⟩

def insert (f : FreeList) (r : Rect) : FreeList :=
  ⟨f.entries ++ [(f.next, r)], f.next + 1⟩

def insertAll (f : FreeList) (rs : List Rect) : FreeList :=
  rs.foldl insert f

/-- One free rectangle. -/
def single (r : Rect) : FreeList := empty.insert r

/-- The free rectangles in order of insertion. -/
def rects (f : FreeList) : List Rect := f.entries.map Prod.snd

def size (f : FreeList) : Nat := f.entries.length

def isEmpty (f : FreeList) : Bool := f.entries.isEmpty

def get? (f : FreeList) (h : Handle) : Option Rect := f.entries.lookup h

def remove (f : FreeList) (h : Handle) : FreeList :=
  { f with entries := f.entries.filter fun e => e.1 ≠ h }

/-- The total free area. -/
def area (f : FreeList) : Checked Area := Area.sum (f.rects.map Rect.area)

/-! ### The best fit -/

/-- The better of a candidate found earlier and a later one: the earlier unless strictly worse. -/
def better (earlier : Option (Handle × Area)) (later : Handle × Area) : Handle × Area :=
  match earlier with
  | none => later
  | some e => if later.2 < e.2 then later else e

/-- The free rectangle that a `width` by `height` piece leaves the least area of, with that area. -/
def bestFit (f : FreeList) (width height : Length) : Option (Handle × Area) :=
  f.entries.foldl (fun best (h, r) =>
    if r.fits width height then some (better best (h, r.area - Length.times width height))
    else best) none

/-! ### Pruning -/

/-- Whether some entry covers the rectangle `r` with handle `h`. Of equal rectangles the one
inserted first covers the others. -/
def isCovered (h : Handle) (r : Rect) : List (Handle × Rect) → Checked Bool
  | [] => .ok false
  | (k, o) :: es =>
    if k = h then isCovered h r es
    else do
      if (← o.contains r) && (o ≠ r || k < h) then return true
      isCovered h r es

/-- The entries that no entry of `all` covers. -/
def uncovered (all : List (Handle × Rect)) : List (Handle × Rect) → Checked (List (Handle × Rect))
  | [] => .ok []
  | (h, r) :: es => do
    let covered ← isCovered h r all
    let kept ← uncovered all es
    return if covered then kept else (h, r) :: kept

/-- Drop every free rectangle that lies within another one. -/
def prune (f : FreeList) : Checked FreeList := do
  return { f with entries := ← uncovered f.entries f.entries }

/-! ### Using a free rectangle -/

/-- How a placement is cut out of a free rectangle. -/
structure Cutting where
  kerf : Length
  rule : SplitRule
  /-- Parts with a shorter side are dropped. -/
  leastSide : Length
deriving DecidableEq, Repr

/-- Use the free rectangle `h` for a piece in its origin corner: it leaves the list, the parts of
its split join it, and the list is pruned. The answer is the rectangle used. A fault leaves the
list as it was when the fault arose. -/
def commit (f : FreeList) (h : Handle) (width height : Length) (c : Cutting) :
    FreeList × Checked Rect :=
  match f.get? h with
  | none => (f, .error .staleHandle)
  | some r =>
    let rest := f.remove h
    if r.fits width height then
      let split := rest.insertAll (c.rule.splitKept ⟨r, width, height, c.kerf⟩ c.leastSide)
      match split.prune with
      | .ok pruned => (pruned, .ok r)
      | .error e => (split, .error e)
    else (rest, .error .tooLarge)

end FreeList

end Guillotine
