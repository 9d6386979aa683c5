import Guillotine.Proofs.Plan.Alike
import Guillotine.Proofs.Request.Canonical
import Guillotine.Proofs.Returns
import Guillotine.Proofs.Runs
import Guillotine.Request.Intake

/-! What the canonical form of a request says about its demand. Requests of the same canonical form
ask for pieces and offer materials that are the same but for absent labels and thickness. A request
that passes its check has finite prices, so its canonical text says what its canonical form is. -/
namespace Guillotine

open List (Forall₂)

theorem Material.alike_of_canonical {m n : Material} (h : m.canonical = n.canonical) :
    m.Alike n := by
  simp only [canonical, CanonicalMaterial.mk.injEq] at h
  obtain ⟨hcode, hwidth, hheight, hcost, hgrain⟩ := h
  exact ⟨hcode, hwidth, hheight, hcost, grainToken_inj hgrain⟩

namespace Request

variable {r q : Request}

/-! ### Requests of one canonical form -/

theorem piece_alike_of_canonical {c d : Cut} (h : c.canonical = d.canonical) (i : Nat) :
    (piece i c).Alike (piece i d) := by
  simp only [Cut.canonical, CanonicalCut.mk.injEq] at h
  obtain ⟨hmaterial, hwidth, hheight, hquantity, hlabel, hgrain, hrotation, hpriority⟩ := h
  exact ⟨rfl, hmaterial, hwidth, hheight, hquantity, hrotation, hpriority,
    grainToken_inj hgrain, hlabel⟩

theorem pieces_alike (h : r.canonical = q.canonical) :
    Forall₂ Piece.Alike r.ordered.pieces q.ordered.pieces := by
  have hcuts := congrArg CanonicalRequest.cuts h
  exact forall₂_mapIdx (fun i _ _ hcd => piece_alike_of_canonical hcd i)
    (forall₂_of_map_eq hcuts)

/-- Two requests ask for items that are the same but for tags, which are related. -/
def ItemsAlike (T : Tag → Tag → Prop) (r q : Request) : Prop :=
  Forall₂ (Item.Alike T) (Packer.ranked r.ordered.pieces) (Packer.ranked q.ordered.pieces)

theorem itemsAlike_of_canonical (h : r.canonical = q.canonical) : r.ItemsAlike SameTag q :=
  Packer.ranked_alike (pieces_alike h)

/-- Requests whose canonical orders have the same cuts ask for the same items. -/
theorem itemsAlike_of_cuts {T : Tag → Tag → Prop} (hT : ∀ t, T t t)
    (h : r.ordered.cuts = q.ordered.cuts) : r.ItemsAlike T q := by
  unfold ItemsAlike pieces
  rw [h, List.forall₂_same]
  exact fun _ _ => ⟨hT _, rfl, rfl, rfl, rfl, rfl, rfl⟩

theorem materials_alike (h : r.canonical = q.canonical) :
    Forall₂ Material.Alike r.ordered.materials q.ordered.materials := by
  have hmaterials := congrArg CanonicalRequest.materials h
  exact (forall₂_of_map_eq hmaterials).imp fun _ _ => Material.alike_of_canonical

theorem saw_eq (h : r.canonical = q.canonical) : r.saw = q.saw :=
  congrArg CanonicalRequest.saw h

/-! ### Requests that pass the check -/

theorem forM_eq_ok_iff {ε α : Type} {f : α → Except ε Unit} {as : List α} :
    as.forM f = .ok () ↔ ∀ a ∈ as, f a = .ok () := by
  induction as with
  | nil => exact ⟨fun _ _ h => absurd h List.not_mem_nil, fun _ => rfl⟩
  | cons a as ih =>
    show (f a >>= fun _ => as.forM f) = .ok () ↔ _
    rw [bind_eq_ok_iff, List.forall_mem_cons, ← ih]
    exact ⟨fun ⟨(), h⟩ => h, fun h => ⟨(), h⟩⟩

theorem isFinite_cost {m : Material} (h : m.validate = .ok ()) : m.cost.isFinite = true := by
  have hflaw : m.flaw? = none := by
    unfold Material.validate at h
    split at h
    next => cases h
    next hnone => exact hnone
  unfold Material.flaw? at hflaw
  split_ifs at hflaw with hcode hside hcost
  rw [Bool.or_eq_true, not_or] at hcost
  simpa using hcost.1

/-- The prices of a request that passes the check are finite. -/
theorem isFinite_price (h : r.check = .ok ()) : ∀ m ∈ r.materials, m.cost.isFinite = true := by
  unfold check at h
  obtain ⟨_, hmaterials, -⟩ := bind_eq_ok_iff.1 h
  exact fun m hm => isFinite_cost (forM_eq_ok_iff.1 hmaterials m hm)

/-- The canonical text of a request that passes the check says what its canonical form is. -/
theorem canonical_eq_of_text (h : r.ordered.check = .ok ())
    (htext : r.canonical.text = q.canonical.text) : r.canonical = q.canonical := by
  apply CanonicalRequest.text_inj _ htext
  show ∀ m ∈ r.ordered.materials.map Material.canonical, _
  rw [List.forall_mem_map]
  exact isFinite_price h

/-- What a request that passes the check asks for. -/
def toDemand (r : Request) : Demand := ⟨r.project, r.pieces, r.materials, r.saw⟩

/-- Whoever watches the check of a request sees its outcome: the warning about unused materials
cannot fault. -/
theorem record_demand (r : Request) (v : Verbosity) :
    (r.demand.run.record v).2 = .ok (r.check.map fun _ => r.toDemand) := by
  unfold demand
  cases r.check with
  | error e => rfl
  | ok u =>
    by_cases hunused : r.unusedCodes.isEmpty
    · simp only [hunused]
      rfl
    · simp only [hunused]
      show (Logged.record v (Logged.note .warn _ >>= fun _ => pure (Except.ok r.toDemand))).2 = _
      rw [Logged.record_bind, Logged.record_note]
      rfl

end Request

end Guillotine
