import Guillotine.Decimal.Order
import Guillotine.Fault
import Guillotine.Table

/-! Sets of members with scores, ranked by descending score; equal scores are ranked by descending
member, so the ranking does not depend on the order of insertion. -/
namespace Guillotine

abbrev ScoredSet := Table String Float

namespace ScoredSet

/-- Whether `a` is ranked before `b`, or they are the same, under an order of scores. -/
def ranksAtLeast (order : Float → Float → Ordering) (a b : String × Float) : Bool :=
  ((order b.2 a.2).then (compare b.1 a.1)).isLE

/-- All members in rank order. -/
def ranking (order : Float → Float → Ordering) (s : ScoredSet) : List String :=
  (s.entries.mergeSort (ranksAtLeast order)).map Prod.fst

/-- The positions from `start` to `stop` of a list. Their number is one more than the difference,
and has to be a number of 64 bits. -/
def slice {α : Type} (start stop : UInt64) (xs : List α) : Checked (List α) :=
  let n := stop.toNat - start.toNat + 1
  if n < UInt64.size then .ok ((xs.drop start.toNat).take n) else .error .sumOverflow

/-- Whether a score is below or above a range. -/
def isOutside (low high score : Float) : Bool := score < low || high < score

/-- The members with scores below or above a range. -/
def outside (s : ScoredSet) (low high : Float) : ScoredSet :=
  s.filter fun _ score => isOutside low high score

end ScoredSet

end Guillotine
