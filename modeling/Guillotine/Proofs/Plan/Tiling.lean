import Guillotine.Proofs.Board.Audit
import Guillotine.Proofs.Plan.Solutions

/-! Without a kerf nothing of a sheet is lost: what is placed on it and what remains of it tile its
usable region, and their areas add up to the usable area. -/
namespace Guillotine

open Region

/-! ### Sheets without loss -/

namespace Layout

variable {l : Layout}

/-- Whether what is placed on a sheet and what remains of it tile its usable region, and their areas
add up to the usable area. -/
structure Tiled (l : Layout) : Prop where
  tiles : Tiles (l.rects.map Rect.region) l.usable.region
  areas : ∃ used free, l.usedArea = .ok used ∧ Area.sum (l.remainders.map Rect.area) = .ok free ∧
    Area.add used free = .ok l.usableArea

/-- The areas of the regions of a tiling are areas that can be added. -/
theorem Tiled.of_tiles (h : Tiles (l.rects.map Rect.region) l.usable.region) : l.Tiled := by
  have hsum : ((l.rects.map Rect.region).map area).sum = l.usable.region.area := h.sum_area
  obtain ⟨used, free, total, hused, hfree, hadd, htotal⟩ := exists_areas (Nat.le_of_eq hsum)
  have husable : total = l.usableArea := by
    rw [← UInt64.toNat_inj, htotal, usableArea, ← Rect.area_region]
    exact hsum
  exact ⟨h, used, free, hused, hfree, husable ▸ hadd⟩

end Layout

variable {catalog : Catalog} {saw : Saw} {s : Settings} {pieces : List Piece}
  {elapsed : Duration} {plan : Plan}

/-- A sheet on which solid items were placed without a kerf is tiled as it was finished. -/
theorem Packer.Filled.tiled {taken : List Item} {l : Layout} (h : Filled saw s taken l)
    (hsolid : ∀ i ∈ taken, i.Solid) (hkerf : saw.kerf = 0) (hleast : s.leastSide ≤ 1) :
    l.Tiled := by
  obtain ⟨b, hreached, rfl⟩ := h.reached
  have hcut := (hreached.feasible hsolid).cuttable
  exact .of_tiles (.of_apart hcut.inside hcut.pairwise_apart
    (hreached.covered hsolid hkerf hleast))

/-! ### A demand without a kerf -/

def thinSaw : Saw := { sampleSaw with kerf := 0 }

def thinPlan : Plan where
  layouts := [⟨sampleMaterial, 1, ⟨1, 1, 8, 6⟩,
    [⟨"side", some "left", 1, 1, 7, 2, true⟩, ⟨"foot_1", none, 1, 3, 2, 2, false⟩,
      ⟨"foot_2", none, 1, 5, 2, 2, false⟩], [⟨8, 1, 1, 2⟩, ⟨3, 3, 6, 4⟩]⟩]
  unplaced := [⟨"lid", "oak", 9, 9, true, 1, none, none⟩]

/-- With a blade that destroys nothing, the small demand leaves two remainders. -/
theorem solve_thin :
    Packing.Returns (solve .standard sampleCatalog thinSaw samplePieces ⟨0, 0⟩) thinPlan := by
  have hrank : Packer.ranked samplePieces = samplePieces.flatMap Piece.copies :=
    List.mergeSort_of_pairwise (by decide)
  unfold solve pack
  rw [hrank]
  rfl

/-- Without a kerf, and if no part of a sheet counts as too small, each unit cell of the usable
region of every sheet is in exactly one of the items placed on it and the remainders. -/
theorem solve_tiled (h : Packing.Returns (solve s catalog saw pieces elapsed) plan)
    (hkerf : saw.kerf = 0) (hleast : s.leastSide ≤ 1) : ∀ l ∈ plan.layouts, l.Tiled := by
  intro l hl
  obtain ⟨takens, hpacked⟩ := solve_spec h
  obtain ⟨taken, htaken, hfilled⟩ := Packer.exists_filled hpacked.filled hl
  exact hfilled.tiled (hpacked.solid taken htaken) hkerf hleast

theorem solve_tiled_thin :
    Packing.Returns (solve .standard sampleCatalog thinSaw samplePieces ⟨0, 0⟩) thinPlan ∧
      thinSaw.kerf = 0 ∧ Settings.standard.leastSide ≤ 1 ∧ ∀ l ∈ thinPlan.layouts, l.Tiled :=
  ⟨solve_thin, rfl, by decide, solve_tiled solve_thin rfl (by decide)⟩

end Guillotine
