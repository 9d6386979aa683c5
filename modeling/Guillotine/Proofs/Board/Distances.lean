import Guillotine.Proofs.Board.Audit

/-! What the audit finds out about distances. Of two placements each is widened in its turn, to the
right and downwards, and then asked whether it overlaps the other one. If one of them lies to the
left of the other and below it, each is widened away from the other along one of the axes. So the
audit lets two such placements pass however close they are, and all others just if they are the kerf
apart. -/
namespace Guillotine

open Region

/-- Whether one region lies to the left of another one and below it, with whatever gaps. -/
def Region.LowerLeft (a b : Region) : Prop := a.x + a.width ≤ b.x ∧ b.y + b.height ≤ a.y

instance (gap : Nat) (a b : Region) : Decidable (Apart gap a b) :=
  inferInstanceAs (Decidable (_ ∨ _))

instance (a b : Region) : Decidable (a.LowerLeft b) := inferInstanceAs (Decidable (_ ∧ _))

namespace Rect

variable {kerf : Length} {r s : Rect}

/-- Whether a rectangle has an extent along both axes and far edges when it is widened by the
kerf. -/
structure Roomy (kerf : Length) (r : Rect) : Prop where
  width_pos : 0 < r.width.toNat
  height_pos : 0 < r.height.toNat
  right : r.x.toNat + r.width.toNat + kerf.toNat < UInt32.size
  bottom : r.y.toNat + r.height.toNat + kerf.toNat < UInt32.size

theorem Roomy.hasEdges (h : r.Roomy kerf) : r.HasEdges := by
  have hright := h.right
  have hbottom := h.bottom
  unfold HasEdges
  omega

/-- A roomy rectangle is widened by the whole kerf. -/
theorem Roomy.region_grown (h : r.Roomy kerf) : (r.grown kerf kerf).region =
    ⟨r.x.toNat, r.y.toNat, r.width.toNat + kerf.toNat, r.height.toNat + kerf.toNat⟩ := by
  have hright := h.right
  have hbottom := h.bottom
  simp only [UInt32.size] at hright hbottom
  simp only [region, grown, Length.toNat_addCapped, Region.mk.injEq, true_and]
  omega

theorem Roomy.shows (h : r.Roomy kerf) : (r.grown kerf kerf).Shows s := by
  have hgrown := h.region_grown
  have hright := h.right
  have hbottom := h.bottom
  simp only [region, Region.mk.injEq] at hgrown
  unfold Shows
  omega

/-- Neither of two roomy rectangles, widened by the kerf, meets the other one just if they are the
kerf apart or one of them lies to the left of the other and below it. -/
theorem Roomy.not_meets_iff (hr : r.Roomy kerf) (hs : s.Roomy kerf) :
    ¬ ((r.grown kerf kerf).Meets s ∨ (s.grown kerf kerf).Meets r) ↔
      Apart kerf.toNat r.region s.region ∨ r.region.LowerLeft s.region ∨
        s.region.LowerLeft r.region := by
  have hgrown := hr.region_grown
  have hgrown' := hs.region_grown
  have hwidth := hr.width_pos
  have hheight := hr.height_pos
  have hwidth' := hs.width_pos
  have hheight' := hs.height_pos
  simp only [region, Region.mk.injEq] at hgrown hgrown'
  simp only [Meets, SpansMeet, Apart, LowerLeft, region]
  omega

end Rect

namespace Audit

variable {kerf : Length} {a b : Placement} {placed : List Placement}

/-- Whether the audit lets two placements pass: they are the kerf apart along one of the axes, or
one of them lies to the left of the other and below it. -/
def Clears (kerf : Length) (a b : Placement) : Prop :=
  Apart kerf.toNat a.rect.region b.rect.region ∨ a.rect.region.LowerLeft b.rect.region ∨
    b.rect.region.LowerLeft a.rect.region

instance (kerf : Length) (a b : Placement) : Decidable (Clears kerf a b) :=
  inferInstanceAs (Decidable (_ ∨ _))

theorem tooClose_roomy (ha : a.rect.Roomy kerf) (hb : b.rect.Roomy kerf) :
    tooClose kerf a b = .ok (decide (¬ Clears kerf a b)) := by
  have hmeets : tooClose kerf a b = .ok (decide ((a.rect.grown kerf kerf).Meets b.rect ∨
      (b.rect.grown kerf kerf).Meets a.rect)) := by
    rw [tooClose, Rect.overlaps_eq hb.hasEdges, if_pos ha.shows]
    by_cases hfirst : (a.rect.grown kerf kerf).Meets b.rect
    · rw [decide_eq_true hfirst, decide_eq_true (.inl hfirst)]
      rfl
    · rw [decide_eq_false hfirst]
      refine (Rect.overlaps_eq ha.hasEdges).trans ?_
      rw [if_pos hb.shows]
      exact congrArg Except.ok (decide_eq_decide.2 (or_iff_right hfirst).symm)
  rw [hmeets, Except.ok.injEq, decide_eq_decide]
  exact (not_iff_comm.1 (ha.not_meets_iff hb)).symm

/-- The first placement that is too close to another one is the first that it does not clear. -/
theorem firstTooClose_roomy (ha : a.rect.Roomy kerf) (hplaced : ∀ b ∈ placed, b.rect.Roomy kerf) :
    firstTooClose kerf a placed = .ok (placed.find? fun b => ¬ Clears kerf a b) := by
  induction placed with
  | nil => rfl
  | cons b placed ih =>
    rw [List.forall_mem_cons] at hplaced
    rw [firstTooClose, tooClose_roomy ha hplaced.1]
    by_cases hclears : Clears kerf a b
    · rw [List.find?_cons_of_neg (by simpa using hclears), ← ih hplaced.2,
        decide_eq_false (not_not.2 hclears)]
      rfl
    · rw [List.find?_cons_of_pos (by simpa using hclears), decide_eq_true hclears]
      rfl

/-- A pair that is too close is found just if some pair does not clear. -/
theorem firstClosePair_roomy (hplaced : ∀ p ∈ placed, p.rect.Roomy kerf) :
    ∃ pair, firstClosePair kerf placed = .ok pair ∧
      (pair = none ↔ placed.Pairwise (Clears kerf)) := by
  induction placed with
  | nil => exact ⟨none, rfl, by simp⟩
  | cons a placed ih =>
    rw [List.forall_mem_cons] at hplaced
    obtain ⟨pair, hpair, hnone⟩ := ih hplaced.2
    rw [firstClosePair, firstTooClose_roomy hplaced.1 hplaced.2, List.pairwise_cons]
    cases hfound : placed.find? fun b => ¬ Clears kerf a b with
    | none =>
      refine ⟨pair, hpair, hnone.trans (and_iff_right fun b hb => ?_).symm⟩
      simpa using List.find?_eq_none.1 hfound b hb
    | some b =>
      refine ⟨some (a, b), rfl, iff_of_false (Option.some_ne_none _) fun h => ?_⟩
      have hb : ¬ Clears kerf a b := by simpa using List.find?_some hfound
      exact hb (h.1 b (List.mem_of_find?_eq_some hfound))

/-- The audit finds some placements far enough apart, whoever watches it, just if each pair of them
is the kerf apart along one of the axes or lies with one to the left of the other and below it. -/
theorem keepsApart_clears (hplaced : ∀ p ∈ placed, p.rect.Roomy kerf) (v : Verbosity) :
    ((keepsApart placed kerf).record v).2 = .ok (decide (placed.Pairwise (Clears kerf))) := by
  obtain ⟨pair, hpair, hnone⟩ := firstClosePair_roomy hplaced
  rw [quiet_keepsApart placed kerf v, keepsApart, Logged.value_bind]
  show (firstClosePair kerf placed >>= _) = _
  rw [hpair]
  cases pair with
  | none => exact congrArg Except.ok (decide_eq_true (hnone.1 rfl)).symm
  | some pair =>
    have hclose : ¬ placed.Pairwise (Clears kerf) := fun h => Option.some_ne_none _ (hnone.2 h)
    exact congrArg Except.ok (decide_eq_false hclose).symm

/-- Two pieces that meet at a corner but for a gap of one along each axis. -/
def cornerPlacements : List Placement :=
  [⟨"low", none, 0, 10, 10, 10, false⟩, ⟨"high", none, 11, 0, 10, 9, false⟩]

theorem roomy_corner : ∀ p ∈ cornerPlacements, p.rect.Roomy 5 := by
  simp only [cornerPlacements, List.forall_mem_cons, List.not_mem_nil, false_imp_iff, implies_true,
    and_true]
  exact ⟨⟨by decide, by decide, by decide, by decide⟩, by decide, by decide, by decide, by decide⟩

theorem keepsApart_clears_corner : (∀ p ∈ cornerPlacements, p.rect.Roomy 5) ∧
    ∀ v, ((keepsApart cornerPlacements 5).record v).2 =
      .ok (decide (cornerPlacements.Pairwise (Clears 5))) :=
  ⟨roomy_corner, keepsApart_clears roomy_corner⟩

/-- The audit passes two placements that are closer than the kerf along both axes. -/
theorem keepsApart_corner_close : (∀ p ∈ cornerPlacements, p.rect.Roomy 5) ∧
    (∀ v, ((keepsApart cornerPlacements 5).record v).2 = .ok true) ∧
    ¬ cornerPlacements.Pairwise fun a b => Apart 5 a.rect.region b.rect.region := by
  have hvalue : (keepsApart cornerPlacements 5).value = .ok true := rfl
  exact ⟨roomy_corner, fun v => (quiet_keepsApart _ _ v).trans hvalue, by decide⟩

end Audit

end Guillotine
