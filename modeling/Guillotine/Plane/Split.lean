import Guillotine.Plane.Rect

/-! Guillotine splits. A piece sits in the origin corner of a free rectangle; what is left of the
rectangle is cut into a part to the right and a part below, by one cut that runs through and one
that stops at it. Which cut runs through is the choice of a rule. The saw takes its kerf only on
an axis that has something left. -/
namespace Guillotine

/-- Which of the two cuts runs through. -/
inductive SplitRule where
  | shorterLeftoverAxis
  | longerLeftoverAxis
  | shorterAxis
  | longerAxis
  | minimizeArea
  | maximizeArea
deriving DecidableEq, Repr

/-- A piece of size `width` by `height` in the origin corner of a free rectangle. -/
structure Corner where
  free : Rect
  width : Length
  height : Length
  kerf : Length
deriving DecidableEq, Repr

namespace Corner

/-- What is left along the horizontal axis, kerf included. -/
def leftWidth (c : Corner) : Length := Length.subFloored c.free.width c.width

/-- What is left along the vertical axis, kerf included. -/
def leftHeight (c : Corner) : Length := Length.subFloored c.free.height c.height

/-- How far right the piece and its cut reach. -/
def takenWidth (c : Corner) : Length :=
  Length.addCapped c.width (if 0 < c.leftWidth then c.kerf else 0)

/-- How far down the piece and its cut reach. -/
def takenHeight (c : Corner) : Length :=
  Length.addCapped c.height (if 0 < c.leftHeight then c.kerf else 0)

/-- The part to the right, `height` tall, unless it is empty. -/
def rightPart (c : Corner) (height : Length) : Option Rect :=
  let width := Length.subFloored c.free.width c.takenWidth
  if 0 < c.leftWidth ∧ 0 < width ∧ 0 < height then
    some ⟨Length.addCapped c.free.x c.takenWidth, c.free.y, width, height⟩
  else none

/-- The part below, `width` wide, unless it is empty. -/
def lowerPart (c : Corner) (width : Length) : Option Rect :=
  let height := Length.subFloored c.free.height c.takenHeight
  if 0 < c.leftHeight ∧ 0 < height ∧ 0 < width then
    some ⟨c.free.x, Length.addCapped c.free.y c.takenHeight, width, height⟩
  else none

/-- The right part is as tall as the piece, and the part below spans the free rectangle. -/
def lowerSpans (c : Corner) : List Rect :=
  (c.rightPart c.height).toList ++ (c.lowerPart c.free.width).toList

/-- The part below is as wide as the piece, and the right part spans the free rectangle. -/
def rightSpans (c : Corner) : List Rect :=
  (c.lowerPart c.width).toList ++ (c.rightPart c.free.height).toList

end Corner

/-- The area of the largest of some rectangles, zero if there is none. -/
def largestArea (rs : List Rect) : Area :=
  rs.foldl (fun a r => max a r.area) 0

namespace SplitRule

/-- The six rules in the order in which they are listed. -/
def all : List SplitRule :=
  [.shorterLeftoverAxis, .longerLeftoverAxis, .shorterAxis, .longerAxis, .minimizeArea,
    .maximizeArea]

/-- The name of a rule in a document. -/
def token : SplitRule → String
  | .shorterLeftoverAxis => "shorter_leftover_axis"
  | .longerLeftoverAxis => "longer_leftover_axis"
  | .shorterAxis => "shorter_axis"
  | .longerAxis => "longer_axis"
  | .minimizeArea => "minimize_area"
  | .maximizeArea => "maximize_area"

/-- The name of a rule in a notice. -/
def title : SplitRule → String
  | .shorterLeftoverAxis => "ShorterLeftoverAxis"
  | .longerLeftoverAxis => "LongerLeftoverAxis"
  | .shorterAxis => "ShorterAxis"
  | .longerAxis => "LongerAxis"
  | .minimizeArea => "MinimizeArea"
  | .maximizeArea => "MaximizeArea"

def ofToken? (s : String) : Option SplitRule :=
  all.find? fun r => r.token == s

/-- Whether the rule lets the part below span the free rectangle. Ties do. -/
def lowerSpans (rule : SplitRule) (c : Corner) : Bool :=
  match rule with
  | .shorterLeftoverAxis => c.leftWidth ≤ c.leftHeight
  | .longerLeftoverAxis => c.leftHeight ≤ c.leftWidth
  | .shorterAxis => c.free.width ≤ c.free.height
  | .longerAxis => c.free.height ≤ c.free.width
  | .minimizeArea => largestArea c.lowerSpans ≤ largestArea c.rightSpans
  | .maximizeArea => largestArea c.rightSpans ≤ largestArea c.lowerSpans

/-- The parts that a rule leaves of a free rectangle, empty ones left out. -/
def split (rule : SplitRule) (c : Corner) : List Rect :=
  if rule.lowerSpans c then c.lowerSpans else c.rightSpans

/-- The parts with both sides at least `least` long. -/
def splitKept (rule : SplitRule) (c : Corner) (least : Length) : List Rect :=
  (rule.split c).filter fun r => least ≤ r.width && least ≤ r.height

theorem ofToken?_token (r : SplitRule) : ofToken? r.token = some r := by
  cases r <;> decide

end SplitRule

end Guillotine
