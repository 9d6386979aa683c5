import Guillotine.Proofs.Plane.Cells
import Guillotine.Proofs.Returns

/-! Areas and their sums as natural numbers. -/
namespace Guillotine

namespace Area

/-- Two areas whose sum is an area have that sum. -/
theorem exists_add {a b : Area} (h : a.toNat + b.toNat < UInt64.size) :
    ∃ c, add a b = .ok c ∧ c.toNat = a.toNat + b.toNat := by
  have hc : (UInt64.ofNat (a.toNat + b.toNat)).toNat = a.toNat + b.toNat :=
    UInt64.toNat_ofNat_of_lt' h
  exact ⟨_, add_eq_ok_iff.2 hc.symm, hc⟩

theorem foldlM_add_eq_ok {as : List Area} {a t : Area} :
    as.foldlM add a = .ok t ↔ a.toNat + (as.map UInt64.toNat).sum = t.toNat := by
  induction as generalizing a with
  | nil =>
    rw [List.map_nil, List.sum_nil, Nat.add_zero, UInt64.toNat_inj]
    exact ⟨Except.ok.inj, congrArg Except.ok⟩
  | cons b as ih =>
    rw [List.foldlM_cons, bind_eq_ok_iff, List.map_cons, List.sum_cons, ← Nat.add_assoc]
    constructor
    · rintro ⟨c, hc, hsum⟩
      rw [add_eq_ok_iff.1 hc]
      exact ih.1 hsum
    · intro hsum
      have hlt := t.toNat_lt
      obtain ⟨c, hc, hc'⟩ := exists_add (a := a) (b := b) (by simp only [UInt64.size]; omega)
      refine ⟨c, hc, ih.2 ?_⟩
      rw [hc']
      exact hsum

/-- A list of areas has a sum just if it is an area as a natural number. -/
theorem sum_eq_ok_iff {as : List Area} {t : Area} :
    sum as = .ok t ↔ (as.map UInt64.toNat).sum = t.toNat := by
  rw [sum, foldlM_add_eq_ok, UInt64.toNat_zero, Nat.zero_add]

/-- Areas that add up to no more than an area have a sum. -/
theorem exists_sum (as : List Area) {t : Area} (h : (as.map UInt64.toNat).sum ≤ t.toNat) :
    ∃ s, sum as = .ok s ∧ s.toNat = (as.map UInt64.toNat).sum := by
  have hlt := t.toNat_lt
  have hs : (UInt64.ofNat (as.map UInt64.toNat).sum).toNat = (as.map UInt64.toNat).sum :=
    UInt64.toNat_ofNat_of_lt' (by simp only [UInt64.size]; omega)
  exact ⟨_, sum_eq_ok_iff.2 hs.symm, hs⟩

theorem add_eq_error {a b : Area} (h : UInt64.size ≤ a.toNat + b.toNat) :
    add a b = .error .sumOverflow :=
  if_neg fun hle => Nat.not_le.2 ((le_add_iff a b).1 hle) h

theorem foldlM_add_eq_error {as : List Area} {a : Area}
    (h : UInt64.size ≤ a.toNat + (as.map UInt64.toNat).sum) :
    as.foldlM add a = .error .sumOverflow := by
  induction as generalizing a with
  | nil => exact absurd a.toNat_lt (Nat.not_lt.2 h)
  | cons b as ih =>
    rw [List.map_cons, List.sum_cons, ← Nat.add_assoc] at h
    rw [List.foldlM_cons]
    by_cases hab : UInt64.size ≤ a.toNat + b.toNat
    · rw [add_eq_error hab]
      rfl
    · obtain ⟨c, hc, hc'⟩ := exists_add (Nat.lt_of_not_le hab)
      rw [hc]
      exact ih (hc' ▸ h)

/-- A list of areas whose numbers add up to no area has no sum. -/
theorem sum_eq_error {as : List Area} (h : UInt64.size ≤ (as.map UInt64.toNat).sum) :
    sum as = .error .sumOverflow :=
  foldlM_add_eq_error (a := 0) (by rwa [UInt64.toNat_zero, Nat.zero_add])

/-- The area of that many square millimetres, if there is one. -/
def exact (n : Nat) : Checked Area :=
  if n < UInt64.size then .ok (UInt64.ofNat n) else .error .sumOverflow

theorem exact_of_lt {n : Nat} (h : n < UInt64.size) :
    ∃ a, exact n = .ok a ∧ a.toNat = n :=
  ⟨_, if_pos h, UInt64.toNat_ofNat_of_lt' h⟩

theorem exact_of_le {n : Nat} (h : UInt64.size ≤ n) : exact n = .error .sumOverflow :=
  if_neg (Nat.not_lt.2 h)

/-- A checked sum is the exact one, if that is an area. -/
theorem sum_eq_exact (as : List Area) : sum as = exact (as.map UInt64.toNat).sum := by
  by_cases h : (as.map UInt64.toNat).sum < UInt64.size
  · obtain ⟨t, ht, hsum⟩ := exact_of_lt h
    rw [ht]
    exact sum_eq_ok_iff.2 hsum.symm
  · rw [exact_of_le (Nat.le_of_not_lt h)]
    exact sum_eq_error (Nat.le_of_not_lt h)

/-- A part is taken away from an area. -/
theorem exists_sub {a b : Area} (h : b.toNat ≤ a.toNat) :
    ∃ c, sub a b = .ok c ∧ b.toNat + c.toNat = a.toNat := by
  refine ⟨a - b, if_pos (UInt64.le_iff_toNat_le.2 h), ?_⟩
  rw [UInt64.toNat_sub_of_le a b (UInt64.le_iff_toNat_le.2 h)]
  omega

end Area

theorem Rect.area_region (r : Rect) : r.region.area = r.area.toNat := (toNat_area r).symm

end Guillotine
