import Guillotine.Proofs.Plan.Solutions
import Guillotine.Proofs.Plane.Areas
import Guillotine.Report.OfPlan

/-! The totals of a plan. What the pieces cover of a sheet of a packing is at most the sheet, so all
areas of one sheet can be worked out, and so can everything about the plan as long as its sheets
together have an area. This is no matter of course: a sheet may have nearly all of the 64 bits of an
area, and a packing any number of sheets. With more area than that nothing can be reported. -/
namespace Guillotine

variable {catalog : Catalog} {saw : Saw} {s : Settings} {pieces : List Piece}
  {elapsed : Duration} {plan : Plan}

/-! ### One sheet -/

namespace Layout

variable {l : Layout}

/-- The area that pieces cover, as a natural number. -/
def coveredArea (l : Layout) : Nat := (l.placed.map fun p => p.width.toNat * p.height.toNat).sum

theorem usedArea_eq (l : Layout) : l.usedArea = Area.exact l.coveredArea := by
  have hcovered : ((l.placed.map Placement.area).map UInt64.toNat).sum = l.coveredArea := by
    rw [List.map_map]
    exact congrArg List.sum (List.map_congr_left fun p _ => Rect.toNat_area p.rect)
  rw [usedArea, placedArea, Area.sum_eq_exact, hcovered]

/-- Pieces that cover no more than the sheet leave the rest of it. -/
theorem exists_used_waste (h : l.coveredArea ≤ l.material.width.toNat * l.material.height.toNat) :
    ∃ used waste, l.usedArea = .ok used ∧ l.wasteArea = .ok waste ∧
      used.toNat = l.coveredArea ∧
      used.toNat + waste.toNat = l.material.width.toNat * l.material.height.toNat := by
  have harea : l.material.area.toNat = l.material.width.toNat * l.material.height.toNat :=
    Length.toNat_times _ _
  have hlt := l.material.area.toNat_lt_size
  rw [← harea] at h ⊢
  obtain ⟨used, hused, hcovered⟩ := Area.exact_of_lt (Nat.lt_of_le_of_lt h hlt)
  rw [← usedArea_eq] at hused
  obtain ⟨waste, hwaste, hrest⟩ := Area.exists_sub (hcovered ▸ h)
  refine ⟨used, waste, hused, ?_, hcovered, hrest⟩
  rw [wasteArea, hused]
  exact hwaste

/-- A sheet is reported with its pieces as soon as its covered area can be worked out. -/
theorem exists_report {used : Area} (h : l.usedArea = .ok used) (side : Length) :
    ∃ b, l.report side = .ok b ∧ b.cuts = l.placed := by
  unfold report efficiency
  rw [h]
  exact ⟨_, rfl, rfl⟩

end Layout

/-! ### All sheets -/

namespace Plan

/-- The area that pieces cover on all sheets used, as a natural number. -/
def coveredArea (p : Plan) : Nat := (p.layouts.map Layout.coveredArea).sum

/-- The area of all sheets used, as a natural number. -/
def sheetArea (p : Plan) : Nat :=
  (p.layouts.map fun l => l.material.width.toNat * l.material.height.toNat).sum

/-- Whether no sheet is covered by more than its own area. -/
def WithinSheets (p : Plan) : Prop :=
  ∀ l ∈ p.layouts, l.coveredArea ≤ l.material.width.toNat * l.material.height.toNat

theorem materialArea_eq (p : Plan) : p.materialArea = Area.exact p.sheetArea := by
  have hsheets : ((p.layouts.map fun l => l.material.area).map UInt64.toNat).sum = p.sheetArea := by
    rw [List.map_map]
    exact congrArg List.sum (List.map_congr_left fun l _ => Length.toNat_times _ _)
  rw [materialArea, Area.sum_eq_exact, hsheets]

/-- What is placed on a sheet of a packing has no more area than the sheet. -/
theorem Packed.withinSheets {takens : List (List Item)}
    (h : plan.Packed catalog saw s pieces takens) : plan.WithinSheets := by
  intro l hl
  obtain ⟨husable, hcut, -⟩ := h.feasible hl
  have hsum := Region.sum_area_le hcut.inside hcut.pairwise_apart
  rw [Layout.rects, List.map_append, List.map_append, List.sum_append, List.map_map,
    List.map_map] at hsum
  have hspec := Saw.usable_spec husable
  have hwidth := hspec.width
  have hheight := hspec.height
  calc l.coveredArea ≤ l.usable.width.toNat * l.usable.height.toNat :=
        (Nat.le_add_right _ _).trans hsum
    _ ≤ l.material.width.toNat * l.material.height.toNat :=
        Nat.mul_le_mul (by omega) (by omega)

namespace WithinSheets

theorem coveredArea_le (h : plan.WithinSheets) : plan.coveredArea ≤ plan.sheetArea :=
  List.sum_le_sum h

theorem usedArea_eq (h : plan.WithinSheets) : plan.usedArea = Area.exact plan.coveredArea := by
  have hall : ∀ l ∈ plan.layouts, ∃ used, l.usedArea = .ok used ∧ used.toNat = l.coveredArea := by
    intro l hl
    obtain ⟨used, -, hused, -, hcovered, -⟩ := Layout.exists_used_waste (h l hl)
    exact ⟨used, hused, hcovered⟩
  obtain ⟨us, hus, hsum⟩ := exists_mapM hall
  rw [usedArea, hus]
  show Area.sum us = _
  rw [Area.sum_eq_exact, hsum, coveredArea]

/-- The efficiency of a packing can be worked out if the area of its sheets is an area. -/
theorem exists_efficiency (h : plan.WithinSheets) (harea : plan.sheetArea < UInt64.size) :
    ∃ e, plan.efficiency = .ok e := by
  obtain ⟨total, htotal, -⟩ := Area.exact_of_lt harea
  obtain ⟨used, hused, -⟩ := Area.exact_of_lt (Nat.lt_of_le_of_lt h.coveredArea_le harea)
  rw [← materialArea_eq] at htotal
  rw [← h.usedArea_eq] at hused
  unfold efficiency
  rw [htotal, hused]
  by_cases hzero : total = 0
  · exact ⟨0, if_pos hzero⟩
  · exact ⟨used.toFloat / total.toFloat, if_neg hzero⟩

theorem exists_boards (h : plan.WithinSheets) (side : Length) :
    ∃ bs, (plan.layouts.mapM fun l => l.report side) = .ok bs := by
  obtain ⟨bs, hbs, -⟩ := exists_mapM (fun l hl => by
    obtain ⟨used, -, hused, -⟩ := Layout.exists_used_waste (h l hl)
    exact Layout.exists_report hused side)
  exact ⟨bs, hbs⟩

end WithinSheets

theorem efficiency_overflows (h : UInt64.size ≤ plan.sheetArea) :
    plan.efficiency = .error .sumOverflow := by
  rw [efficiency, materialArea_eq, Area.exact_of_le h]
  rfl

/-! ### Reports -/

theorem exists_wastePercentage (h : plan.WithinSheets) (harea : plan.sheetArea < UInt64.size) :
    ∃ x, plan.wastePercentage = .ok x := by
  obtain ⟨e, he⟩ := h.exists_efficiency harea
  unfold wastePercentage
  rw [he]
  cases plan.layouts.isEmpty
  · exact ⟨_, rfl⟩
  · exact ⟨_, rfl⟩

theorem wastePercentage_overflows (h : UInt64.size ≤ plan.sheetArea) :
    plan.wastePercentage = .error .sumOverflow := by
  have hsome : plan.layouts.isEmpty = false := by
    rw [sheetArea] at h
    cases hlayouts : plan.layouts with
    | nil =>
      rw [hlayouts] at h
      exact absurd h (by decide)
    | cons l ls => rfl
  unfold wastePercentage
  rw [efficiency_overflows h, hsome]
  rfl

theorem exists_report (h : plan.WithinSheets) (harea : plan.sheetArea < UInt64.size)
    (project : String) (elapsed : Duration) (side : Length) :
    ∃ r, plan.report project elapsed side = .ok r := by
  obtain ⟨bs, hbs⟩ := h.exists_boards side
  obtain ⟨x, hx⟩ := exists_wastePercentage h harea
  unfold report
  rw [hbs, hx]
  exact ⟨_, rfl⟩

theorem report_overflows (h : plan.WithinSheets) (harea : UInt64.size ≤ plan.sheetArea)
    (project : String) (elapsed : Duration) (side : Length) :
    plan.report project elapsed side = .error .sumOverflow := by
  obtain ⟨bs, hbs⟩ := h.exists_boards side
  unfold report
  rw [hbs, wastePercentage_overflows harea]
  rfl

/-- What the totals of a plan are: those of one sheet always exact, those of all sheets exact as
long as they are areas, and a report just if the area of all sheets is one. -/
structure Totalled (p : Plan) : Prop where
  sheets : ∀ l ∈ p.layouts, ∃ used waste, l.usedArea = .ok used ∧ l.wasteArea = .ok waste ∧
    used.toNat = l.coveredArea ∧
    used.toNat + waste.toNat = l.material.width.toNat * l.material.height.toNat
  covered_le : p.coveredArea ≤ p.sheetArea
  used : p.usedArea = Area.exact p.coveredArea
  material : p.materialArea = Area.exact p.sheetArea
  reported : p.sheetArea < UInt64.size →
    ∀ project elapsed side, ∃ r, p.report project elapsed side = .ok r
  unreported : UInt64.size ≤ p.sheetArea →
    ∀ project elapsed side, p.report project elapsed side = .error .sumOverflow

end Plan

/-- The totals of a solution are exact wherever they are areas, and it can be reported just if the
area of its sheets is one. -/
theorem solve_totals (h : Packing.Returns (solve s catalog saw pieces elapsed) plan) :
    plan.Totalled := by
  obtain ⟨takens, hpacked⟩ := solve_spec h
  have hwithin := hpacked.withinSheets
  exact {
    sheets := fun l hl => Layout.exists_used_waste (hwithin l hl)
    covered_le := hwithin.coveredArea_le
    used := hwithin.usedArea_eq
    material := plan.materialArea_eq
    reported := Plan.exists_report hwithin
    unreported := Plan.report_overflows hwithin }

theorem solve_totals_sample :
    Packing.Returns (solve .standard sampleCatalog sampleSaw samplePieces ⟨0, 0⟩) samplePlan ∧
      samplePlan.Totalled :=
  ⟨solve_sample, solve_totals solve_sample⟩

/-! ### Two sheets with too much area -/

/-- The largest sheet there is. -/
def hallSheet : Material := ⟨"hall", 4294967295, 4294967295, 1, 0, none⟩

/-- Two pieces each of which takes a little more than half of the largest sheet. -/
def hallPieces : List Piece := [⟨"half", "hall", 4294967295, 2147483648, 2, false, 0, none, none⟩]

def hallPlan : Plan where
  layouts := [⟨hallSheet, 1, ⟨0, 0, 4294967295, 4294967295⟩,
      [⟨"half_1", none, 0, 0, 4294967295, 2147483648, false⟩],
      [⟨0, 2147483648, 4294967295, 2147483647⟩]⟩,
    ⟨hallSheet, 2, ⟨0, 0, 4294967295, 4294967295⟩,
      [⟨"half_2", none, 0, 0, 4294967295, 2147483648, false⟩],
      [⟨0, 2147483648, 4294967295, 2147483647⟩]⟩]
  unplaced := []

/-- Two pieces on two sheets are a solution whose sheets cannot be added up and of which there is no
report. -/
theorem solve_hall_totals :
    Packing.Returns (solve .standard (.ofList [hallSheet]) ⟨0, 0, 0, 0, 0⟩ hallPieces ⟨0, 0⟩)
        hallPlan ∧
      hallPlan.materialArea = .error .sumOverflow ∧
      hallPlan.report "hall" ⟨0, 0⟩ 0 = .error .sumOverflow := by
  have hrank : Packer.ranked hallPieces = hallPieces.flatMap Piece.copies :=
    List.mergeSort_of_pairwise (by decide)
  refine ⟨?_, rfl, rfl⟩
  unfold solve pack
  rw [hrank]
  rfl

end Guillotine
