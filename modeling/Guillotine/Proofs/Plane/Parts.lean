import Guillotine.Plane.Split
import Guillotine.Proofs.Plane.Cuttable

/-! The parts of a split in exact coordinates. Lengths are cut off at the longest one, but as long
as the far edges of the free rectangle are lengths this never shows: a part exists just if its
exact extents are positive, and then it is where the exact sums put it. Whichever cut runs through,
the piece and the parts can be cut out of the free rectangle. -/
namespace Guillotine

namespace Rect

/-- Whether the far edges of a rectangle are lengths. -/
def HasEdges (r : Rect) : Prop :=
  r.x.toNat + r.width.toNat < UInt32.size ∧ r.y.toNat + r.height.toNat < UInt32.size

/-- What lies within a rectangle with edges has edges itself. -/
theorem HasEdges.of_inside {r s : Rect} (hs : s.HasEdges) (h : r.region.Inside s.region) :
    r.HasEdges := by
  simp only [HasEdges, Region.Inside, region] at *
  omega

theorem region_injective {r s : Rect} (h : r.region = s.region) : r = s := by
  cases r; cases s
  simpa [region, UInt32.toNat_inj] using h

end Rect

namespace Corner

variable {c : Corner} {p : Rect}

/-- The piece that sits in the corner. -/
def piece (c : Corner) : Rect := ⟨c.free.x, c.free.y, c.width, c.height⟩

/-- Whether the piece fits and the free rectangle has its edges. -/
structure Fitting (c : Corner) : Prop where
  width_le : c.width.toNat ≤ c.free.width.toNat
  height_le : c.height.toNat ≤ c.free.height.toNat
  edges : c.free.HasEdges

theorem leftWidth_pos_iff : 0 < c.leftWidth ↔ c.width.toNat < c.free.width.toNat := by
  rw [UInt32.lt_iff_toNat_lt, leftWidth, Length.toNat_subFloored]
  exact Nat.sub_pos_iff_lt

theorem leftHeight_pos_iff : 0 < c.leftHeight ↔ c.height.toNat < c.free.height.toNat := by
  rw [UInt32.lt_iff_toNat_lt, leftHeight, Length.toNat_subFloored]
  exact Nat.sub_pos_iff_lt

/-- What the blade leaves of an extent, exactly. -/
theorem toNat_rest (extent taken kerf : Length) :
    (Length.subFloored extent (Length.addCapped taken kerf)).toNat =
      extent.toNat - (taken.toNat + kerf.toNat) := by
  have := extent.toNat_lt
  rw [Length.toNat_subFloored, Length.toNat_addCapped]
  omega

/-- Where the blade stops, exactly, if it stops before the far edge. -/
theorem toNat_start {x extent taken kerf : Length}
    (hx : x.toNat + extent.toNat < UInt32.size)
    (h : taken.toNat + kerf.toNat < extent.toNat) :
    (Length.addCapped x (Length.addCapped taken kerf)).toNat =
      x.toNat + (taken.toNat + kerf.toNat) := by
  simp only [UInt32.size] at hx
  rw [Length.toNat_addCapped, Length.toNat_addCapped]
  omega

/-- The right part exists just if the blade leaves something beyond it, and starts there. -/
theorem rightPart_eq_some_iff (hc : c.Fitting) {height : Length} :
    c.rightPart height = some p ↔
      c.width.toNat + c.kerf.toNat < c.free.width.toNat ∧ 0 < height.toNat ∧
        p.region = ⟨c.free.x.toNat + (c.width.toNat + c.kerf.toNat), c.free.y.toNat,
          c.free.width.toNat - (c.width.toNat + c.kerf.toNat), height.toNat⟩ := by
  have hrest := toNat_rest c.free.width c.width c.kerf
  by_cases hleft : c.width.toNat < c.free.width.toNat
  · have htaken : c.takenWidth = Length.addCapped c.width c.kerf := by
      rw [takenWidth, if_pos (leftWidth_pos_iff.2 hleft)]
    simp only [rightPart, htaken, Option.ite_none_right_eq_some, Option.some.injEq,
      UInt32.lt_iff_toNat_lt, hrest, UInt32.toNat_zero]
    constructor
    · rintro ⟨⟨-, hpos, hh⟩, rfl⟩
      have hlt : c.width.toNat + c.kerf.toNat < c.free.width.toNat := by omega
      refine ⟨hlt, hh, ?_⟩
      simp only [Rect.region, toNat_start hc.edges.1 hlt, hrest]
    · rintro ⟨hlt, hh, hp⟩
      have hpos := UInt32.lt_iff_toNat_lt.1 (leftWidth_pos_iff.2 hleft)
      refine ⟨⟨hpos, by omega, hh⟩, Rect.region_injective ?_⟩
      rw [hp]
      simp only [Rect.region, toNat_start hc.edges.1 hlt, hrest]
  · rw [rightPart, if_neg fun h => hleft (leftWidth_pos_iff.1 h.1)]
    simp only [reduceCtorEq, false_iff]
    omega

/-- The part below exists just if the blade leaves something beyond it, and starts there. -/
theorem lowerPart_eq_some_iff (hc : c.Fitting) {width : Length} :
    c.lowerPart width = some p ↔
      c.height.toNat + c.kerf.toNat < c.free.height.toNat ∧ 0 < width.toNat ∧
        p.region = ⟨c.free.x.toNat, c.free.y.toNat + (c.height.toNat + c.kerf.toNat),
          width.toNat, c.free.height.toNat - (c.height.toNat + c.kerf.toNat)⟩ := by
  have hrest := toNat_rest c.free.height c.height c.kerf
  by_cases hleft : c.height.toNat < c.free.height.toNat
  · have htaken : c.takenHeight = Length.addCapped c.height c.kerf := by
      rw [takenHeight, if_pos (leftHeight_pos_iff.2 hleft)]
    simp only [lowerPart, htaken, Option.ite_none_right_eq_some, Option.some.injEq,
      UInt32.lt_iff_toNat_lt, hrest, UInt32.toNat_zero]
    constructor
    · rintro ⟨⟨-, hpos, hw⟩, rfl⟩
      have hlt : c.height.toNat + c.kerf.toNat < c.free.height.toNat := by omega
      refine ⟨hlt, hw, ?_⟩
      simp only [Rect.region, toNat_start hc.edges.2 hlt, hrest]
    · rintro ⟨hlt, hw, hp⟩
      have hpos := UInt32.lt_iff_toNat_lt.1 (leftHeight_pos_iff.2 hleft)
      refine ⟨⟨hpos, by omega, hw⟩, Rect.region_injective ?_⟩
      rw [hp]
      simp only [Rect.region, toNat_start hc.edges.2 hlt, hrest]
  · rw [lowerPart, if_neg fun h => hleft (leftHeight_pos_iff.1 h.1)]
    simp only [reduceCtorEq, false_iff]
    omega

/-! ### Cutting the piece and the parts -/

section Cutting

variable (hc : c.Fitting) (hw : 0 < c.width.toNat) (hh : 0 < c.height.toNat)

include hc hw hh

/-- The cut below the piece runs through, and the one to its right stops at it. -/
theorem lowerSpans_cuttable :
    Cuttable c.kerf.toNat c.free.region ((c.piece :: c.lowerSpans).map Rect.region) := by
  let upper : Region := { c.free.region with height := c.height.toNat }
  have hupper : Cuttable c.kerf.toNat upper
      ([c.piece.region] ++ ((c.rightPart c.height).map Rect.region).toList) := by
    refine Cuttable.cutOff .horizontal c.width.toNat ⟨hw, hc.width_le⟩ (Cuttable.whole _) ?_
    intro p hp
    obtain ⟨q, hq, rfl⟩ := Option.map_eq_some_iff.1 hp
    obtain ⟨hlt, -, hr⟩ := (rightPart_eq_some_iff hc).1 hq
    exact ⟨hlt, hr⟩
  have hlower : ∀ p ∈ (c.lowerPart c.free.width).map Rect.region,
      c.height.toNat + c.kerf.toNat < c.free.region.extent .vertical ∧
        p = c.free.region.beyond (c.height.toNat + c.kerf.toNat) .vertical := by
    intro p hp
    obtain ⟨q, hq, rfl⟩ := Option.map_eq_some_iff.1 hp
    obtain ⟨hlt, -, hr⟩ := (lowerPart_eq_some_iff hc).1 hq
    exact ⟨hlt, hr⟩
  have hall := Cuttable.cutOff (r := c.free.region) .vertical c.height.toNat ⟨hh, hc.height_le⟩
    hupper hlower
  simpa [lowerSpans, Option.toList_map] using hall

/-- The cut to the right of the piece runs through, and the one below it stops at it. -/
theorem rightSpans_cuttable :
    Cuttable c.kerf.toNat c.free.region ((c.piece :: c.rightSpans).map Rect.region) := by
  let left : Region := { c.free.region with width := c.width.toNat }
  have hleft : Cuttable c.kerf.toNat left
      ([c.piece.region] ++ ((c.lowerPart c.width).map Rect.region).toList) := by
    refine Cuttable.cutOff .vertical c.height.toNat ⟨hh, hc.height_le⟩ (Cuttable.whole _) ?_
    intro p hp
    obtain ⟨q, hq, rfl⟩ := Option.map_eq_some_iff.1 hp
    obtain ⟨hlt, -, hr⟩ := (lowerPart_eq_some_iff hc).1 hq
    exact ⟨hlt, hr⟩
  have hright : ∀ p ∈ (c.rightPart c.free.height).map Rect.region,
      c.width.toNat + c.kerf.toNat < c.free.region.extent .horizontal ∧
        p = c.free.region.beyond (c.width.toNat + c.kerf.toNat) .horizontal := by
    intro p hp
    obtain ⟨q, hq, rfl⟩ := Option.map_eq_some_iff.1 hp
    obtain ⟨hlt, -, hr⟩ := (rightPart_eq_some_iff hc).1 hq
    exact ⟨hlt, hr⟩
  have hall := Cuttable.cutOff (r := c.free.region) .horizontal c.width.toNat ⟨hw, hc.width_le⟩
    hleft hright
  simpa [rightSpans, Option.toList_map] using hall

/-- Whatever the rule, the piece and the parts can be cut out of the free rectangle. -/
theorem split_cuttable (rule : SplitRule) :
    Cuttable c.kerf.toNat c.free.region ((c.piece :: rule.split c).map Rect.region) := by
  unfold SplitRule.split
  split
  · exact lowerSpans_cuttable hc hw hh
  · exact rightSpans_cuttable hc hw hh

end Cutting

/-- No part is empty. -/
theorem pos_of_mem_split (hc : c.Fitting) {rule : SplitRule} (hp : p ∈ rule.split c) :
    0 < p.width.toNat ∧ 0 < p.height.toNat := by
  have hright : ∀ {h : Length}, p ∈ (c.rightPart h).toList →
      0 < p.width.toNat ∧ 0 < p.height.toNat := by
    intro h hm
    obtain ⟨hlt, hpos, hr⟩ := (rightPart_eq_some_iff hc).1 (Option.mem_toList.1 hm)
    simp only [Rect.region, Region.mk.injEq] at hr
    omega
  have hlower : ∀ {w : Length}, p ∈ (c.lowerPart w).toList →
      0 < p.width.toNat ∧ 0 < p.height.toNat := by
    intro w hm
    obtain ⟨hlt, hpos, hr⟩ := (lowerPart_eq_some_iff hc).1 (Option.mem_toList.1 hm)
    simp only [Rect.region, Region.mk.injEq] at hr
    omega
  unfold SplitRule.split at hp
  split at hp
  · exact (List.mem_append.1 hp).elim hright hlower
  · exact (List.mem_append.1 hp).elim hlower hright

end Corner

end Guillotine
