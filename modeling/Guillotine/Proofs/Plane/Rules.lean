import Guillotine.Proofs.Plane.Areas
import Guillotine.Proofs.Plane.Exact

/-! How the split rules relate. There are two ways to cut up what is left of a free rectangle, and a
rule does no more than choose one of them. Where the piece fills one of the axes, both ways leave
the same parts, so that all rules agree. Else the two rules that go by areas choose the way whose
largest part is the smallest, or the largest, that any rule leaves. -/
namespace Guillotine

/-- The area of the largest of some regions, zero if there is none. -/
def Region.largest (rs : List Region) : Nat := (rs.map area).max?.getD 0

/-- The area by which a rule compares the two ways is the exact one. -/
theorem toNat_largestArea (rs : List Rect) :
    (largestArea rs).toNat = Region.largest (rs.map Rect.region) := by
  have hfold : ∀ a : Area, (rs.foldl (fun a r => max a r.area) a).toNat =
      ((rs.map Rect.region).map Region.area).foldl max a.toNat := by
    induction rs with
    | nil => exact fun _ => rfl
    | cons r rs ih =>
      intro a
      rw [List.foldl_cons, ih, Area.toNat_max, ← Rect.area_region]
      rfl
  rw [largestArea, hfold, List.foldl_max, UInt64.toNat_zero, Nat.zero_max, Region.largest]

/-! ### Where the piece fills an axis -/

namespace Corner

variable {c : Corner}

theorem rightPart_eq_none (h : ¬ c.width < c.free.width) (height : Length) :
    c.rightPart height = none :=
  if_neg fun hparts => h (UInt32.lt_iff_toNat_lt.2 (leftWidth_pos_iff.1 hparts.1))

theorem lowerPart_eq_none (h : ¬ c.height < c.free.height) (width : Length) :
    c.lowerPart width = none :=
  if_neg fun hparts => h (UInt32.lt_iff_toNat_lt.2 (leftHeight_pos_iff.1 hparts.1))

/-- Where something is left along one axis at most, both ways leave the same parts. -/
theorem lowerSpans_eq_rightSpans (hfits : c.free.fits c.width c.height = true)
    (h : ¬ (c.width < c.free.width ∧ c.height < c.free.height)) :
    c.lowerSpans = c.rightSpans := by
  obtain ⟨hw, hh⟩ := Rect.fits_iff.1 hfits
  rcases not_and_or.1 h with hfull | hfull
  · -- Nothing is left to the right, and the part below is as wide as the piece in either way.
    have hwidth : c.width = c.free.width := UInt32.le_antisymm hw (UInt32.not_lt.1 hfull)
    rw [lowerSpans, rightSpans, rightPart_eq_none hfull, rightPart_eq_none hfull, hwidth,
      Option.toList_none, List.nil_append, List.append_nil]
  · have hheight : c.height = c.free.height := UInt32.le_antisymm hh (UInt32.not_lt.1 hfull)
    rw [lowerSpans, rightSpans, lowerPart_eq_none hfull, lowerPart_eq_none hfull, hheight,
      Option.toList_none, List.nil_append, List.append_nil]

end Corner

/-! ### Areas -/

namespace SplitRule

/-- The area of the largest part that a rule leaves, zero if it leaves none. -/
def largestPart (rule : SplitRule) (c : Corner) : Nat :=
  Region.largest ((rule.split c).map Rect.region)

/-- A rule leaves the parts of the way that it chooses. -/
theorem largestPart_eq (rule : SplitRule) (c : Corner) : rule.largestPart c =
    if rule.lowerSpans c then (largestArea c.lowerSpans).toNat
    else (largestArea c.rightSpans).toNat := by
  rw [largestPart, ← toNat_largestArea, split]
  split
  · rfl
  · rfl

theorem largestPart_minimizeArea (c : Corner) : minimizeArea.largestPart c =
    min (largestArea c.lowerSpans).toNat (largestArea c.rightSpans).toNat := by
  rw [largestPart_eq, Nat.min_def]
  simp only [lowerSpans, decide_eq_true_eq, UInt64.le_iff_toNat_le]

theorem largestPart_maximizeArea (c : Corner) : maximizeArea.largestPart c =
    max (largestArea c.lowerSpans).toNat (largestArea c.rightSpans).toNat := by
  rw [largestPart_eq, Nat.max_comm, Nat.max_def]
  simp only [lowerSpans, decide_eq_true_eq, UInt64.le_iff_toNat_le]

/-- The largest parts that the two rules by areas leave are the bounds for all rules. -/
theorem largestPart_bounds (rule : SplitRule) (c : Corner) :
    minimizeArea.largestPart c ≤ rule.largestPart c ∧
      rule.largestPart c ≤ maximizeArea.largestPart c := by
  rw [largestPart_minimizeArea, largestPart_maximizeArea, largestPart_eq]
  split
  · exact ⟨Nat.min_le_left _ _, Nat.le_max_left _ _⟩
  · exact ⟨Nat.min_le_right _ _, Nat.le_max_right _ _⟩

/-- All rules leave the same parts where something is left along one axis at most. -/
theorem split_eq_split {c : Corner} (hfits : c.free.fits c.width c.height = true)
    (h : ¬ (c.width < c.free.width ∧ c.height < c.free.height)) (rule rule' : SplitRule) :
    rule.split c = rule'.split c := by
  rw [split, split, Corner.lowerSpans_eq_rightSpans hfits h, ite_self, ite_self]

/-- Where a piece that fits leaves something along one axis at most, all rules leave the same parts.
In any corner, the largest part that a rule leaves is no smaller than the one that is left if areas
are to be small, and no larger than the one that is left if they are to be large. -/
theorem split_relates (c : Corner) :
    (c.free.fits c.width c.height = true →
      ¬ (c.width < c.free.width ∧ c.height < c.free.height) →
        ∀ rule rule' : SplitRule, rule.split c = rule'.split c) ∧
      ∀ rule : SplitRule, minimizeArea.largestPart c ≤ rule.largestPart c ∧
        rule.largestPart c ≤ maximizeArea.largestPart c :=
  ⟨split_eq_split, fun rule => largestPart_bounds rule c⟩

/-- A piece as wide as the free rectangle. -/
def strip : Corner := ⟨⟨10, 10, 100, 60⟩, 100, 20, 5⟩

/-- A piece that leaves more than the kerf along both axes. -/
def tile : Corner := ⟨⟨10, 10, 100, 60⟩, 70, 20, 5⟩

theorem split_relates_strip : strip.free.fits strip.width strip.height = true ∧
    ¬ (strip.width < strip.free.width ∧ strip.height < strip.free.height) ∧
    (∀ rule rule' : SplitRule, rule.split strip = rule'.split strip) ∧
    ∀ rule : SplitRule, 2450 ≤ rule.largestPart tile ∧ rule.largestPart tile ≤ 3500 := by
  have hfits : strip.free.fits strip.width strip.height = true := rfl
  have hfull : ¬ (strip.width < strip.free.width ∧ strip.height < strip.free.height) := by decide
  exact ⟨hfits, hfull, (split_relates strip).1 hfits hfull, (split_relates tile).2⟩

end SplitRule

end Guillotine
