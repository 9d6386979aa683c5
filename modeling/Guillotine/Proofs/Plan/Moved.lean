import Guillotine.Proofs.Board.Moved
import Guillotine.Proofs.Plan.Following

/-! Trims only move what is cut. A demand is packed on sheets with trims as on smaller sheets
without any: if each material is cut down to what its trims leave of it, the same items are left
over, there are as many sheets of each material, and on each of them all items and remainders are in
the same places, up to the trims at the left and at the top. -/
namespace Guillotine

open List (Forall₂)

variable {catalog catalog' : Catalog} {saw : Saw} {s : Settings} {pieces : List Piece}
  {elapsed : Duration} {plan : Plan} {m : Material}

/-! ### Checking -/

theorem Material.validate_eq_ok_iff : m.validate = .ok () ↔
    m.code ≠ "" ∧ ¬ (m.width = 0 ∨ m.height = 0) ∧ ¬ (!m.cost.isFinite || m.cost < 0) = true := by
  unfold validate flaw?
  split_ifs <;> simp [*]

/-- A material that is accepted is accepted without what its trims take. -/
theorem Saw.validate_trimmed {u : Rect} (hu : saw.usable m = .ok u)
    (hvalid : m.validate = .ok ()) : (m.trimmed saw).validate = .ok () := by
  obtain ⟨u', hu', -⟩ := usable_trimmed hu
  have hspec := usable_spec hu'
  have hw := hspec.width
  have hh := hspec.height
  have hpos := hspec.pos
  rw [Material.validate_eq_ok_iff] at hvalid ⊢
  refine ⟨hvalid.1, ?_, hvalid.2.2⟩
  rw [← UInt32.toNat_inj, ← UInt32.toNat_inj, UInt32.toNat_zero]
  omega

namespace Packer

theorem check_trimmed {known known' : List Material}
    (h : check catalog saw known pieces = .ok known')
    (hcatalog : ∀ p ∈ pieces,
      catalog' p.material = (catalog p.material).map (Material.trimmed saw)) :
    check catalog' saw.untrimmed (known.map (Material.trimmed saw)) pieces =
      .ok (known'.map (Material.trimmed saw)) := by
  induction pieces generalizing known with
  | nil =>
    obtain rfl := Except.ok.inj h
    rfl
  | cons p ps ih =>
    rw [List.forall_mem_cons] at hcatalog
    obtain ⟨hp, m, hm, h⟩ := check_cons_eq_ok_iff.1 h
    refine check_cons_eq_ok_iff.2 ⟨hp, m.trimmed saw, by rw [hcatalog.1, hm, Option.map_some], ?_⟩
    have hany : ((known.map (Material.trimmed saw)).any fun k => k.code = (m.trimmed saw).code) =
        known.any fun k => k.code = m.code := List.any_map
    rw [hany]
    split at h
    next hknown =>
      rw [if_pos hknown]
      exact ih h hcatalog.2
    next hknown =>
      obtain ⟨hvalid, ⟨u, hu⟩, h⟩ := h
      obtain ⟨u', hu', -⟩ := Saw.usable_trimmed hu
      have hnext := ih h hcatalog.2
      rw [List.map_append] at hnext
      rw [if_neg hknown]
      exact ⟨Saw.validate_trimmed hu hvalid, ⟨u', hu'⟩, hnext⟩

theorem checkAll_trimmed {known : List Material} (h : checkAll catalog saw pieces = .ok known)
    (hcatalog : ∀ p ∈ pieces,
      catalog' p.material = (catalog p.material).map (Material.trimmed saw)) :
    checkAll catalog' saw.untrimmed pieces = .ok (known.map (Material.trimmed saw)) := by
  unfold checkAll at h ⊢
  split at h
  next => cases h
  next hsome => exact (if_neg hsome).trans (check_trimmed h hcatalog)

/-- Sheets without trims are packed as those with them. -/
theorem follows_trimmed (s : Settings) (saw : Saw) (m : Material) :
    Follows Item.Solid (Board.MovedFrom saw) (Layout.MovedFrom saw) s s saw saw.untrimmed m
      (m.trimmed saw) where
  usable hu := by
    obtain ⟨u', hu', hmoved⟩ := Saw.usable_trimmed hu
    exact ⟨u', hu', fun i => by simp only [Item.fitsIn, hmoved.fits]⟩
  opened hb _ _ := Board.moved_opened hb
  noSpot hbc _ hb := (hbc.free.findSpot _).symm.trans hb
  put hbc hi hput := hbc.put hi hput
  used hbc := (isEmpty_eq_of_forall₂ hbc.layout.placed).symm
  finish hbc := hbc.finish

end Packer

open Packer

/-- Trims only translate. Where a demand is packed with trims, it is packed also without any, on
sheets as large as what the trims leave. Both plans leave the same items over, and they have the
same sheets of each material, with the same items and remainders in the same order, which on the
sheets with trims are moved by the trims at the left and at the top. -/
theorem solve_moved (h : Packing.Returns (solve s catalog saw pieces elapsed) plan)
    (hcatalog : ∀ p ∈ pieces, catalog' p.material = (catalog p.material).map (Material.trimmed saw))
    (elapsed' : Duration) :
    ∃ plan', Packing.Returns (solve s catalog' saw.untrimmed pieces elapsed') plan' ∧
      plan.Related (Layout.MovedFrom saw) plan' := by
  obtain ⟨takens, hpacked⟩ := solve_spec h
  have hchecked : ∀ known, checkAll catalog saw pieces = .ok known →
      ∃ known', checkAll catalog' saw.untrimmed pieces = .ok known' ∧
        ∀ code m, known.find? (fun m => m.code = code) = some m →
          ∃ m', known'.find? (fun m => m.code = code) = some m' ∧
            Follows Item.Solid (Board.MovedFrom saw) (Layout.MovedFrom saw) s s saw saw.untrimmed
              m m' := by
    intro known hknown
    refine ⟨_, checkAll_trimmed hknown hcatalog, fun code m hm => ?_⟩
    refine ⟨m.trimmed saw, ?_, follows_trimmed s saw m⟩
    rw [List.find?_map]
    exact congrArg (Option.map _) hm
  exact solve_follows rfl hchecked hpacked.solid_copies elapsed elapsed' plan h

/-- The materials of the small demand, cut down to what the trims leave. -/
def trimmedCatalog : Catalog := fun code => (sampleCatalog code).map (Material.trimmed sampleSaw)

theorem solve_moved_sample :
    Packing.Returns (solve .standard sampleCatalog sampleSaw samplePieces ⟨0, 0⟩) samplePlan ∧
      (∀ p ∈ samplePieces, trimmedCatalog p.material =
        (sampleCatalog p.material).map (Material.trimmed sampleSaw)) ∧
      ∃ plan', Packing.Returns
        (solve .standard trimmedCatalog sampleSaw.untrimmed samplePieces ⟨0, 0⟩) plan' ∧
        samplePlan.Related (Layout.MovedFrom sampleSaw) plan' :=
  ⟨solve_sample, fun _ _ => rfl, solve_moved solve_sample (fun _ _ => rfl) ⟨0, 0⟩⟩

end Guillotine
