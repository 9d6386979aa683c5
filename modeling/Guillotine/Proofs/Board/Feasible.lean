import Guillotine.Proofs.Board.Placed
import Guillotine.Proofs.Plane.Parts

/-! A sheet can be cut at any time: what was placed on it and what is still free can be cut out of
the usable region together. A placement refines the cuts in the free rectangle that it uses;
dropping parts and pruning only take regions away. -/
namespace Guillotine

/-! ### The usable region -/

namespace Saw

variable {saw : Saw} {m : Material} {u : Rect}

/-- A usable region is a sheet without its trims, which leave something of both sides. -/
structure Usable (saw : Saw) (m : Material) (u : Rect) : Prop where
  width : saw.leftTrim.toNat + u.width.toNat + saw.rightTrim.toNat = m.width.toNat
  height : saw.topTrim.toNat + u.height.toNat + saw.bottomTrim.toNat = m.height.toNat
  x : u.x = saw.leftTrim
  y : u.y = saw.topTrim
  pos : 0 < u.width.toNat ∧ 0 < u.height.toNat

theorem toNat_sub_ofNat {a : Length} {n : Nat} (h : n < a.toNat) :
    (a - UInt32.ofNat n).toNat = a.toNat - n := by
  have ha := a.toNat_lt
  have hn : (UInt32.ofNat n).toNat = n := UInt32.toNat_ofNat_of_lt' (Nat.lt_trans h ha)
  rw [UInt32.toNat_sub_of_le _ _ (UInt32.le_iff_toNat_le.2 (by omega)), hn]

theorem usable_spec (h : saw.usable m = .ok u) : saw.Usable m u := by
  unfold usable at h
  split at h
  next => cases h
  next hw =>
    split at h
    next => cases h
    next hh =>
      obtain rfl := Except.ok.inj h
      have hwidth := toNat_sub_ofNat (Nat.lt_of_not_le hw)
      have hheight := toNat_sub_ofNat (Nat.lt_of_not_le hh)
      simp only [sideTrims, endTrims] at *
      constructor <;> dsimp only <;> omega

theorem Usable.hasEdges (h : saw.Usable m u) : u.HasEdges := by
  have hw := h.width
  have hh := h.height
  have := m.width.toNat_lt
  have := m.height.toNat_lt
  rw [← h.x] at hw
  rw [← h.y] at hh
  simp only [Rect.HasEdges, UInt32.size]
  omega

end Saw

namespace Board

/-! ### The invariant -/

variable {b b' : Board} {i : Item} {spot : Spot} {used : Rect} {p : Placement}

/-- All that has been claimed of a sheet, or can still be. -/
def regions (b : Board) : List Region :=
  (b.placed.map Placement.rect ++ b.free.rects).map Rect.region

/-- Whether a sheet can be cut as it is. -/
structure Feasible (b : Board) : Prop where
  edges : b.usable.HasEdges
  cuttable : Cuttable b.cutting.kerf.toNat b.usable.region b.regions
  solid : ∀ r ∈ b.free.rects, 0 < r.width.toNat ∧ 0 < r.height.toNat

theorem Feasible.inside (h : b.Feasible) {r : Rect} (hr : r ∈ b.free.rects) :
    r.region.Inside b.usable.region :=
  h.cuttable.inside _ (List.mem_map_of_mem (List.mem_append_right _ hr))

namespace Put

/-- The corner in which a placed item lies. -/
def corner (b : Board) (spot : Spot) (used : Rect) : Corner :=
  ⟨used, spot.orientation.width, spot.orientation.height, b.cutting.kerf⟩

theorem rect_eq (h : Put b i spot used b' p) : p.rect = (corner b spot used).piece := by
  rw [h.placement]
  rfl

theorem fitting (h : Put b i spot used b' p) (hb : b.Feasible) :
    (corner b spot used).Fitting := by
  obtain ⟨hw, hh⟩ := Rect.fits_iff.1 h.committed.fits
  exact ⟨UInt32.le_iff_toNat_le.1 hw, UInt32.le_iff_toNat_le.1 hh,
    hb.edges.of_inside (hb.inside h.committed.mem)⟩

/-- Of the regions after a placement, the placed item and the parts of the split are new, and the
free rectangle used is none of the old ones among them. -/
theorem regions_subperm (h : Put b i spot used b' p) :
    ∃ old, List.Subperm (used.region :: old) b.regions ∧ List.Subperm b'.regions
      (((corner b spot used).piece :: b.cutting.rule.split (corner b spot used)).map
        Rect.region ++ old) := by
  let parts := b.cutting.rule.split (corner b spot used)
  let kept := b.cutting.rule.splitKept (corner b spot used) b.cutting.leastSide
  let placed := b.placed.map Placement.rect
  let left := (b.free.remove spot.handle).rects
  refine ⟨(placed ++ left).map Rect.region, ?_, ?_⟩
  · have hsub : List.Subperm (used :: (placed ++ left)) (placed ++ b.free.rects) :=
      List.perm_middle.symm.subperm.trans
        ((List.subperm_append_left placed).2
          (FreeList.cons_rects_remove_subperm h.committed.found))
    exact hsub.map fun _ _ => Rect.region_injective
  · have hkept : kept.Sublist parts := List.filter_sublist
    have hfree : b'.free.rects.Sublist (left ++ kept) := h.committed.rects_sublist
    have hplaced : b'.placed.map Placement.rect = placed ++ [(corner b spot used).piece] := by
      rw [h.board, List.map_append, List.map_singleton, h.rect_eq]
    have hperm : (placed ++ [(corner b spot used).piece] ++ (left ++ parts)).Perm
        ((corner b spot used).piece :: parts ++ (placed ++ left)) := by
      rw [List.append_assoc, List.singleton_append]
      refine List.perm_middle.trans (List.Perm.cons _ ?_)
      rw [← List.append_assoc]
      exact List.perm_append_comm
    have hsub : List.Subperm (b'.placed.map Placement.rect ++ b'.free.rects)
        ((corner b spot used).piece :: parts ++ (placed ++ left)) := by
      rw [hplaced]
      have hfree' := hfree.trans (hkept.append_left left)
      exact (hfree'.append_left _).subperm.trans hperm.subperm
    simpa [regions, parts, List.map_append] using hsub.map fun _ _ => Rect.region_injective

/-- A placement keeps a sheet such that it can be cut. -/
theorem feasible (h : Put b i spot used b' p) (hi : i.Solid) (hb : b.Feasible) :
    b'.Feasible := by
  have hfit := h.fitting hb
  obtain ⟨hw, hh⟩ := hi.orientation (FreeList.findSpot_orientation h.found)
  have hboard := h.board
  have hcutting : b'.cutting = b.cutting := by rw [hboard]
  have husable : b'.usable = b.usable := by rw [hboard]
  refine ⟨husable ▸ hb.edges, ?_, ?_⟩
  · rw [hcutting, husable]
    obtain ⟨old, hold, hnew⟩ := h.regions_subperm
    have hsplit := Corner.split_cuttable hfit hw hh b.cutting.rule
    exact ((hb.cuttable.subperm hold).refine hsplit (List.Perm.refl _)).subperm hnew
  · intro r hr
    rcases List.mem_append.1 (h.committed.rects_sublist.subset hr) with hr | hr
    · exact hb.solid r
        ((FreeList.cons_rects_remove_subperm h.committed.found).subset
          (List.mem_cons_of_mem _ hr))
    · exact Corner.pos_of_mem_split hfit (List.mem_of_mem_filter hr)

end Put

/-- A new sheet is one free rectangle. -/
theorem feasible_opened {m : Material} {index : UInt64} {saw : Saw} {s : Settings}
    (h : opened m index saw s = .ok b) : b.Feasible := by
  obtain ⟨u, hu, rfl⟩ := opened_eq_ok_iff.1 h
  have hspec := Saw.usable_spec hu
  refine ⟨hspec.hasEdges, Cuttable.whole _, ?_⟩
  intro r hr
  obtain rfl := List.mem_singleton.1 hr
  exact hspec.pos

/-- Whatever is placed on a new sheet, it can be cut. -/
theorem Reached.feasible {m : Material} {saw : Saw} {s : Settings} {items : List Item}
    (h : Reached m saw s items b) (hsolid : ∀ i ∈ items, i.Solid) : b.Feasible := by
  induction h with
  | opened h => exact feasible_opened h
  | placed _ h ih =>
    obtain ⟨spot, used, hput⟩ := place_returns_some_iff.1 h
    rw [List.forall_mem_append, List.forall_mem_singleton] at hsolid
    exact hput.feasible hsolid.2 (ih hsolid.1)

end Board

end Guillotine
