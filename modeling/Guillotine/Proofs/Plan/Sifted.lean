import Guillotine.Proofs.Board.Sifted
import Guillotine.Proofs.Plan.Following
import Guillotine.Proofs.Plan.Tiling

/-! Dropping slivers does no harm. If no side of a piece is shorter than those of the free
rectangles that are kept, the same items are placed in the same places whether slivers are dropped
or not, and the sheets differ in remainders that are slivers only. -/
namespace Guillotine

variable {catalog : Catalog} {saw : Saw} {s : Settings} {pieces : List Piece}
  {elapsed : Duration} {plan : Plan} {least : Length} {m : Material}

open Packer

/-- Sheets on which slivers are dropped are packed as those on which they are not. -/
theorem Packer.follows_sifted (hle : s.leastSide ≤ least) :
    Follows (fun i => i.AtLeast least ∧ i.Solid) (Board.Sifted least)
      (fun l k => l.sifted least = k) s { s with leastSide := least } saw saw m m where
  usable hu := ⟨_, hu, fun _ => rfl⟩
  opened hb hi hfits := Board.sifted_opened hb hle hi.1 hfits
  noSpot hbc _ hb := hbc.free.noSpot hb
  put hbc hi hput := hbc.put hi.1 hi.2 hput
  used hbc := by rw [hbc.placed]
  finish hbc := hbc.finish

/-- A plan without the remainders that are slivers. -/
def Plan.sifted (least : Length) (plan : Plan) : Plan :=
  { plan with layouts := plan.layouts.map (Layout.sifted least) }

/-! ### A demand with a sliver left over -/

/-- Nothing is dropped. -/
def keepingSettings : Settings := { Settings.standard with leastSide := 0 }

/-- Where nothing is dropped, a remainder is left that is thinner than all pieces. -/
theorem solve_thin_keeping :
    Packing.Returns (solve keepingSettings sampleCatalog thinSaw samplePieces ⟨0, 0⟩) thinPlan := by
  have hrank : ranked samplePieces = samplePieces.flatMap Piece.copies :=
    List.mergeSort_of_pairwise (by decide)
  unfold solve pack
  rw [hrank]
  rfl

/-! ### All demands -/

/-- Where no side of a piece is shorter than `least`, it makes no difference to drop free rectangles
with a shorter side: the demand is packed the same, sheet by sheet, and the remainders of a sheet
are those of before that are no slivers, in the same order. -/
theorem solve_sifted (h : Packing.Returns (solve s catalog saw pieces elapsed) plan)
    (hle : s.leastSide ≤ least) (hpieces : ∀ p ∈ pieces, least ≤ p.width ∧ least ≤ p.height)
    (elapsed' : Duration) :
    Packing.Returns (solve { s with leastSide := least } catalog saw pieces elapsed')
      (plan.sifted least) := by
  obtain ⟨takens, hpacked⟩ := solve_spec h
  have hitems : ∀ i ∈ pieces.flatMap Piece.copies, i.AtLeast least ∧ i.Solid := by
    intro i hi
    refine ⟨?_, hpacked.solid_copies i hi⟩
    obtain ⟨p, hp, hip⟩ := List.mem_flatMap.1 hi
    obtain ⟨k, -, rfl⟩ := List.mem_map.1 hip
    exact ⟨(hpieces p hp).1, (hpieces p hp).2⟩
  have hfollows : ∀ m, Follows (fun i => i.AtLeast least ∧ i.Solid) (Board.Sifted least)
      (fun l k => l.sifted least = k) s { s with leastSide := least } saw saw m m :=
    fun m => follows_sifted hle
  have hsheets : ({ s with leastSide := least } : Settings).maxSheets = s.maxSheets := rfl
  obtain ⟨plan', h', hlayouts, hunplaced⟩ := solve_follows hsheets (fun known hknown =>
    ⟨known, hknown, fun _ m hm => ⟨m, hm, hfollows m⟩⟩) hitems elapsed elapsed' plan h
  rw [← List.forall₂_map_left_iff, List.forall₂_eq_eq_eq] at hlayouts
  rwa [Plan.sifted, hlayouts, hunplaced]

theorem solve_sifted_thin :
    Packing.Returns (solve keepingSettings sampleCatalog thinSaw samplePieces ⟨0, 0⟩) thinPlan ∧
      keepingSettings.leastSide ≤ 2 ∧ (∀ p ∈ samplePieces, 2 ≤ p.width ∧ 2 ≤ p.height) ∧
      Packing.Returns
        (solve { keepingSettings with leastSide := 2 } sampleCatalog thinSaw samplePieces ⟨0, 0⟩)
        (thinPlan.sifted 2) := by
  have hpieces : ∀ p ∈ samplePieces, 2 ≤ p.width ∧ 2 ≤ p.height := by decide
  have hkeeping : keepingSettings.leastSide ≤ 2 := by decide
  exact ⟨solve_thin_keeping, hkeeping, hpieces,
    solve_sifted solve_thin_keeping hkeeping hpieces ⟨0, 0⟩⟩

/-- Of the two remainders one is a sliver. -/
example : (thinPlan.sifted 2).layouts.map Layout.remainders = [[⟨3, 3, 6, 4⟩]] := by decide

end Guillotine
