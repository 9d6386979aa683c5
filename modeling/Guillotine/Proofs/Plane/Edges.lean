import Guillotine.Proofs.Plane.Parts

/-! Rectangles whose far edges are lengths. Their edges are the exact sums, and the questions of
what lies within what and what overlaps what get the answers they have for exact regions. -/
namespace Guillotine

namespace Length

/-- Two lengths whose sum is a length have that sum. -/
theorem exists_add {a b : Length} (h : a.toNat + b.toNat < UInt32.size) :
    ∃ c, add a b = .ok c ∧ c.toNat = a.toNat + b.toNat := by
  have hc : (UInt32.ofNat (a.toNat + b.toNat)).toNat = a.toNat + b.toNat :=
    UInt32.toNat_ofNat_of_lt' h
  exact ⟨_, add_eq_ok_iff.2 hc.symm, hc⟩

theorem add_eq_error {a b : Length} (h : ¬ a.toNat + b.toNat < UInt32.size) :
    add a b = .error .sumOverflow :=
  if_neg fun hle => h ((le_add_iff a b).1 hle)

theorem max_lt_min_iff {a b c d : Length} :
    max a b < min c d ↔ max a.toNat b.toNat < min c.toNat d.toNat := by
  show (if a ≤ b then b else a) < (if c ≤ d then c else d) ↔ _
  simp only [UInt32.lt_iff_toNat_lt, UInt32.le_iff_toNat_le]
  split <;> split <;> omega

end Length

namespace Rect

variable {r s : Rect}

theorem HasEdges.exists_right (h : r.HasEdges) :
    ∃ e, r.right = .ok e ∧ e.toNat = r.x.toNat + r.width.toNat :=
  Length.exists_add h.1

theorem HasEdges.exists_bottom (h : r.HasEdges) :
    ∃ e, r.bottom = .ok e ∧ e.toNat = r.y.toNat + r.height.toNat :=
  Length.exists_add h.2

instance (a b : Region) : Decidable (a.Inside b) := inferInstanceAs (Decidable (_ ∧ _))

/-- Among rectangles with edges, those within another one are told apart exactly. -/
theorem contains_eq (hr : r.HasEdges) (hs : s.HasEdges) :
    r.contains s = .ok (decide (s.region.Inside r.region)) := by
  obtain ⟨far, hfar, hfar'⟩ := hr.exists_right
  obtain ⟨right, hright, hright'⟩ := hs.exists_right
  obtain ⟨low, hlow, hlow'⟩ := hr.exists_bottom
  obtain ⟨bottom, hbottom, hbottom'⟩ := hs.exists_bottom
  have hinside : decide (s.region.Inside r.region) =
      ((decide (r.x ≤ s.x) && decide (r.y ≤ s.y)) && (decide (right ≤ far) &&
        decide (bottom ≤ low))) := by
    rw [Bool.eq_iff_iff, decide_eq_true_iff]
    simp only [Bool.and_eq_true, decide_eq_true_eq, Region.Inside, region, UInt32.le_iff_toNat_le]
    omega
  rw [hinside, contains, hfar, hright, hlow, hbottom]
  split
  next hnear =>
    rw [hnear]
    change (if right ≤ far then Except.ok (decide (bottom ≤ low)) else Except.ok false) = _
    split <;> simp [*]
  next hnear =>
    rw [Bool.not_eq_true] at hnear
    rw [hnear]
    rfl

/-! ### Overlapping -/

/-- Whether the horizontal spans of two rectangles meet in more than an edge. -/
def SpansMeet (r s : Rect) : Prop :=
  max r.x.toNat s.x.toNat < min (r.x.toNat + r.width.toNat) (s.x.toNat + s.width.toNat)

instance (r s : Rect) : Decidable (r.SpansMeet s) := inferInstanceAs (Decidable (_ < _))

/-- Whether two rectangles have more than edges in common. -/
def Meets (r s : Rect) : Prop :=
  r.SpansMeet s ∧
    max r.y.toNat s.y.toNat < min (r.y.toNat + r.height.toNat) (s.y.toNat + s.height.toNat)

instance (r s : Rect) : Decidable (r.Meets s) := inferInstanceAs (Decidable (_ ∧ _))

/-- Whether `r` has the edges that are looked at to see if it overlaps `s`. -/
def Shows (r s : Rect) : Prop :=
  r.x.toNat + r.width.toNat < UInt32.size ∧
    (r.SpansMeet s → r.y.toNat + r.height.toNat < UInt32.size)

instance (r s : Rect) : Decidable (r.Shows s) := inferInstanceAs (Decidable (_ ∧ _))

/-- Overlapping a rectangle with edges is told exactly, or not at all for want of an edge. -/
theorem overlaps_eq (hs : s.HasEdges) : r.overlaps s =
    if r.Shows s then .ok (decide (r.Meets s)) else .error .sumOverflow := by
  obtain ⟨sx, hsx, hsx'⟩ := hs.exists_right
  obtain ⟨sy, hsy, hsy'⟩ := hs.exists_bottom
  by_cases hx : r.x.toNat + r.width.toNat < UInt32.size
  · obtain ⟨rx, hrx, hrx'⟩ := Length.exists_add hx
    have hspans : max r.x s.x < min rx sx ↔ r.SpansMeet s := by
      rw [Length.max_lt_min_iff, hrx', hsx', SpansMeet]
    rw [overlaps, right, hrx, hsx]
    show (if max r.x s.x < min rx sx then (do
      return max r.y s.y < min (← r.bottom) (← s.bottom) : Checked Bool) else return false) = _
    rw [hsy, bottom]
    by_cases hmeet : r.SpansMeet s
    · rw [if_pos (hspans.2 hmeet)]
      by_cases hy : r.y.toNat + r.height.toNat < UInt32.size
      · obtain ⟨ry, hry, hry'⟩ := Length.exists_add hy
        rw [if_pos ⟨hx, fun _ => hy⟩, hry]
        refine congrArg Except.ok (decide_eq_decide.2 ?_)
        rw [Length.max_lt_min_iff, hry', hsy', Meets, and_iff_right hmeet]
      · rw [if_neg fun h => hy (h.2 hmeet), Length.add_eq_error hy]
        rfl
    · rw [if_neg fun h => hmeet (hspans.1 h), if_pos ⟨hx, fun h => absurd h hmeet⟩,
        decide_eq_false fun h => hmeet h.1]
      rfl
  · rw [if_neg fun h => hx h.1, overlaps, right, Length.add_eq_error hx]
    rfl

end Rect

end Guillotine
