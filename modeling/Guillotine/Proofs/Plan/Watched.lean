import Guillotine.Proofs.Board.Audit
import Guillotine.Proofs.Plan.Totals

/-! Packing under observation. What a packing has to say is worked out only for an observer who
records it, and two of its notices of level `info` add up areas: those of all items demanded, and
those of all sheets used. Nothing else of a notice can fault. So all observers see a packing end in
the same way, unless one of these sums is no area; then those who record `info` see an overflow in
place of the outcome. -/
namespace Guillotine

variable {α : Type} {m : Material} {catalog : Catalog} {saw : Saw} {s : Settings}
  {pieces : List Piece} {plan : Plan}

/-! ### Notices of packing -/

namespace Packing

variable {β : Type} {x : Packing α} {f : α → Packing β}

/-- Whether what is seen of a step of packing is its value, whoever watches. -/
def Quiet (x : Packing α) : Prop := Logged.Quiet x.run

theorem quiet_pure (a : α) : Quiet (pure a) := fun _ => rfl

theorem quiet_ofExcept (r : Except Rejection α) : Quiet (ExceptT.mk (pure r)) := fun _ => rfl

theorem quiet_fault (e : Fault) : Quiet (Logged.fault e : Packing α) := fun _ => rfl

theorem quiet_lift {y : Logged α} (hy : y.Quiet) : Quiet (liftM y) :=
  hy.bind fun _ _ => rfl

theorem Quiet.bind (hx : Quiet x) (hf : ∀ a, Quiet (f a)) : Quiet (x >>= f) := by
  apply Logged.Quiet.bind hx
  intro r
  cases r with
  | ok a => exact hf a
  | error e => exact fun _ => rfl

theorem quiet_notes {γ : Type} (l : Level) (t : γ → Unit → String) (cs : List γ) :
    Quiet (cs.forM fun c => (liftM (Logged.note l (t c)) : Packing Unit)) := by
  induction cs with
  | nil => exact quiet_pure ()
  | cons c cs ih => exact (quiet_lift (Logged.quiet_note l (t c))).bind fun _ => ih

/-- Whoever records a notice in front of a quiet step sees its fault in place of the value. -/
theorem record_noteChecked_bind {l : Level} {t : Unit → Checked String} {g : Unit → Packing α}
    (hg : Quiet (g ())) (v : Verbosity) :
    ((liftM (Logged.noteChecked l t) >>= g : Packing α).run.record v).2 =
      if v.admits l = true then
        t () >>= fun _ => (liftM (Logged.noteChecked l t) >>= g : Packing α).run.value
      else (liftM (Logged.noteChecked l t) >>= g : Packing α).run.value := by
  have hvalue : (liftM (Logged.noteChecked l t) >>= g : Packing α).run.value =
      (g ()).run.value := rfl
  rw [hvalue, Logged.record_run_bind, Logged.record_run_lift, Logged.record_noteChecked]
  by_cases hv : v.admits l = true
  · rw [if_pos hv, if_pos hv, ← hg v]
    cases t () <;> rfl
  · rw [if_neg hv, if_neg hv, ← hg v]
    rfl

end Packing

/-! ### Quiet steps -/

namespace Packer

theorem quiet_fillSheets (m : Material) (saw : Saw) (s : Settings) (allowed index : Nat)
    (items : List Item) : Packing.Quiet (fillSheets m saw s allowed index items) := by
  induction allowed generalizing index items with
  | zero => exact Packing.quiet_pure _
  | succ allowed ih =>
    rw [fillSheets]
    split
    · exact Packing.quiet_pure _
    · refine (Packing.quiet_ofExcept _).bind fun b => ?_
      refine (Packing.quiet_lift (quiet_fill b items)).bind fun filled => ?_
      obtain ⟨b', rest⟩ := filled
      dsimp only
      split
      · exact Packing.quiet_pure _
      · refine (Packing.quiet_lift (Board.quiet_finish b')).bind fun layout => ?_
        exact (ih (index + 1) rest).bind fun _ => Packing.quiet_pure _

theorem quiet_packMaterial (m : Material) (saw : Saw) (s : Settings) (items : List Item) :
    Packing.Quiet (packMaterial m saw s items) := by
  rw [packMaterial]
  refine (Packing.quiet_ofExcept _).bind fun usable => ?_
  refine (Packing.quiet_notes _ _ _).bind fun _ => ?_
  refine (quiet_fillSheets m saw s _ _ _).bind fun filled => ?_
  obtain ⟨layouts, left⟩ := filled
  dsimp only
  split
  · exact Packing.quiet_pure _
  · exact (Packing.quiet_lift (Logged.quiet_note _ _)).bind fun _ => Packing.quiet_pure _

theorem quiet_packGroups (known : List Material) (saw : Saw) (s : Settings)
    (groups : List (String × List Item)) : Packing.Quiet (packGroups known saw s groups) := by
  induction groups with
  | nil => exact Packing.quiet_pure _
  | cons g groups ih =>
    obtain ⟨code, items⟩ := g
    rw [packGroups]
    split
    · exact Packing.quiet_fault _
    · refine (quiet_packMaterial _ saw s items).bind fun packed => ?_
      exact ih.bind fun _ => Packing.quiet_pure _

end Packer

/-! ### The area demanded -/

/-- The area of all copies of some pieces, as a natural number. -/
def demandedArea (pieces : List Piece) : Nat :=
  (pieces.map fun p => p.quantity.toNat * (p.width.toNat * p.height.toNat)).sum

theorem sum_area_copies (p : Piece) : (p.copies.map fun i => i.area.toNat).sum =
    p.quantity.toNat * (p.width.toNat * p.height.toNat) := by
  have hcopy : ∀ k, (p.copy k).area.toNat = p.width.toNat * p.height.toNat :=
    fun k => Length.toNat_times p.width p.height
  rw [Piece.copies, List.map_map]
  simp only [Function.comp_def, hcopy, List.map_const', List.length_range, List.sum_replicate_nat]

theorem sum_area_ranked (pieces : List Piece) :
    (((Packer.ranked pieces).map Item.area).map UInt64.toNat).sum = demandedArea pieces := by
  rw [List.map_map]
  have hperm := (Packer.ranked_perm pieces).map fun i => i.area.toNat
  refine hperm.sum_eq.trans ?_
  clear hperm
  induction pieces with
  | nil => rfl
  | cons p ps ih =>
    rw [List.flatMap_cons, List.map_append, List.sum_append, sum_area_copies, ih, demandedArea,
      demandedArea, List.map_cons, List.sum_cons]

/-! ### Observers -/

/-- Whether a line of level `info` about a packing cannot be worked out, because the demand or the
sheets of the finished plan have more area than can be added up. -/
inductive LinesOverflow (s : Settings) (catalog : Catalog) (saw : Saw) (pieces : List Piece) : Prop
  | demand {known : List Material} (h : Packer.checkAll catalog saw pieces = .ok known)
    (harea : UInt64.size ≤ demandedArea pieces)
  | sheets {plan : Plan} (h : Packing.Returns (pack s catalog saw pieces) plan)
    (harea : UInt64.size ≤ plan.sheetArea)

/-- A demand that is turned down is so for every observer. -/
theorem record_pack_rejected {r : Rejection}
    (h : Packer.checkAll catalog saw pieces = .error r) (v : Verbosity) :
    ((pack s catalog saw pieces).run.record v).2 = .ok (.error r) := by
  rw [pack, h]
  rfl

/-- Those who record level `info` see an overflow in place of a packing if the demand has too much
area, and all others see how it ends. -/
theorem record_pack_checked {known : List Material}
    (h : Packer.checkAll catalog saw pieces = .ok known) (v : Verbosity) :
    ((pack s catalog saw pieces).run.record v).2 =
      if v.admits .info = true ∧ UInt64.size ≤ demandedArea pieces then .error .sumOverflow
      else (pack s catalog saw pieces).run.value := by
  have hquiet : Packing.Quiet (do
      let plan ← Packer.packGroups known saw s (Packer.grouped (Packer.ranked pieces))
      unless plan.accountsFor (Packer.ranked pieces).length do Logged.fault .itemsUnaccounted
      return plan) := by
    refine (Packer.quiet_packGroups known saw s _).bind fun plan => ?_
    split
    · exact Packing.quiet_pure plan
    · exact (Packing.quiet_fault _).bind fun _ => Packing.quiet_pure plan
  have hsum := sum_area_ranked pieces
  rw [pack, h]
  refine (Packing.record_noteChecked_bind hquiet v).trans ?_
  by_cases hv : v.admits .info = true
  · rw [if_pos hv]
    by_cases harea : UInt64.size ≤ demandedArea pieces
    · rw [if_pos ⟨hv, harea⟩, Area.sum_eq_error (by rwa [hsum])]
      rfl
    · obtain ⟨total, htotal, -⟩ := Area.exists_sum ((Packer.ranked pieces).map Item.area)
        (t := UInt64.ofNat (demandedArea pieces))
        (by rw [hsum, UInt64.toNat_ofNat_of_lt' (Nat.lt_of_not_le harea)])
      rw [if_neg fun h => harea h.2, htotal]
      rfl
  · rw [if_neg hv, if_neg fun h => hv h.1]
    rfl

/-- Those who record level `info` work out the efficiency of a plan that is announced. -/
theorem record_announce (v : Verbosity) (plan : Plan) (elapsed : Duration) :
    ((liftM (plan.announce elapsed) >>= fun _ => pure plan : Packing Plan).run.record v).2 =
      if v.admits .info = true then plan.efficiency.map fun _ => .ok plan else .ok (.ok plan) := by
  refine (Packing.record_noteChecked_bind (Packing.quiet_pure plan) v).trans ?_
  by_cases hv : v.admits .info = true
  · rw [if_pos hv, if_pos hv]
    cases plan.efficiency <;> rfl
  · rw [if_neg hv, if_neg hv]
    rfl

/-- An observer of level `info` sees an overflow if a line about the packing cannot be worked
out. -/
theorem record_solve_overflow {v : Verbosity} (hv : v.admits .info = true)
    (h : LinesOverflow s catalog saw pieces) (elapsed : Duration) :
    ((solve s catalog saw pieces elapsed).run.record v).2 = .error .sumOverflow := by
  rw [solve, Logged.record_run_bind]
  cases h with
  | demand hknown harea =>
    rw [record_pack_checked hknown, if_pos ⟨hv, harea⟩]
    rfl
  | @sheets plan hplan harea =>
    obtain ⟨known, hknown, -⟩ := Packing.returns_bind.1 hplan
    rw [Packing.returns_ofExcept] at hknown
    rw [record_pack_checked hknown]
    by_cases hdemand : v.admits .info = true ∧ UInt64.size ≤ demandedArea pieces
    · rw [if_pos hdemand]
      rfl
    · rw [if_neg hdemand, show (pack s catalog saw pieces).run.value = _ from hplan]
      refine (record_announce v plan elapsed).trans ?_
      rw [if_pos hv, Plan.efficiency_overflows harea]
      rfl

/-- All others see how the packing ends. -/
theorem record_solve_value {v : Verbosity}
    (h : ¬ (v.admits .info = true ∧ LinesOverflow s catalog saw pieces)) (elapsed : Duration) :
    ((solve s catalog saw pieces elapsed).run.record v).2 =
      (pack s catalog saw pieces).run.value := by
  have hpack : ((pack s catalog saw pieces).run.record v).2 =
      (pack s catalog saw pieces).run.value := by
    cases hknown : Packer.checkAll catalog saw pieces with
    | error r =>
      rw [record_pack_rejected hknown, pack, hknown]
      rfl
    | ok known =>
      rw [record_pack_checked hknown, if_neg]
      exact fun hboth => h ⟨hboth.1, .demand hknown hboth.2⟩
  rw [solve, Logged.record_run_bind, hpack]
  cases hvalue : (pack s catalog saw pieces).run.value with
  | error e => rfl
  | ok r =>
    cases r with
    | error r => rfl
    | ok plan =>
      refine (record_announce v plan elapsed).trans ?_
      by_cases hv : v.admits .info = true
      · obtain ⟨takens, hpacked, -⟩ := pack_spec hvalue
        obtain ⟨e, he⟩ := hpacked.withinSheets.exists_efficiency
          (Nat.lt_of_not_le fun harea => h ⟨hv, .sheets hvalue harea⟩)
        rw [if_pos hv, he]
        rfl
      · rw [if_neg hv]

/-- Two observers at any verbosities see a packing end in the same way, however long it took, just
if both or neither of them record level `info`, or all lines of this level can be worked out, or the
packing itself ends in an overflow. What each of them sees is how the packing ends, unless level
`info` is recorded and a line cannot be worked out; then it is an overflow. -/
theorem solve_watched (s : Settings) (catalog : Catalog) (saw : Saw) (pieces : List Piece)
    (v w : Verbosity) (elapsed elapsed' : Duration) :
    (((solve s catalog saw pieces elapsed).run.record v).2 =
        ((solve s catalog saw pieces elapsed').run.record w).2 ↔
      v.admits .info = w.admits .info ∨ ¬ LinesOverflow s catalog saw pieces ∨
        (pack s catalog saw pieces).run.value = .error .sumOverflow) ∧
    (((solve s catalog saw pieces elapsed).run.record v).2 =
        (pack s catalog saw pieces).run.value ∨
      v.admits .info = true ∧ LinesOverflow s catalog saw pieces ∧
        ((solve s catalog saw pieces elapsed).run.record v).2 = .error .sumOverflow) := by
  by_cases h : LinesOverflow s catalog saw pieces
  · have hsees : ∀ (v : Verbosity) elapsed, ((solve s catalog saw pieces elapsed).run.record v).2 =
        if v.admits .info = true then .error .sumOverflow
        else (pack s catalog saw pieces).run.value := by
      intro v elapsed
      split
      next hv => exact record_solve_overflow hv h elapsed
      next hv => exact record_solve_value (fun hboth => hv hboth.1) elapsed
    rw [hsees, hsees]
    cases v.admits .info <;> cases w.admits .info <;> simp [h, eq_comm]
  · have hsees : ∀ (v : Verbosity) elapsed, ((solve s catalog saw pieces elapsed).run.record v).2 =
        (pack s catalog saw pieces).run.value :=
      fun v => record_solve_value fun hboth => h hboth.2
    rw [hsees, hsees]
    simp [h]

/-- Two pieces of the largest size, which together have more area than can be added up. -/
def fieldPieces : List Piece := [⟨"field", "oak", 4294967295, 4294967295, 2, true, 0, none, none⟩]

def fieldPlan : Plan where
  layouts := []
  unplaced := [⟨"field_1", "oak", 4294967295, 4294967295, true, 0, none, none⟩,
    ⟨"field_2", "oak", 4294967295, 4294967295, true, 0, none, none⟩]

/-- Pieces that fit no sheet are left over, but those who record level `info` see an overflow. -/
theorem solve_field_watched :
    ((solve .standard sampleCatalog sampleSaw fieldPieces ⟨0, 0⟩).run.record none).2 =
        .ok (.ok fieldPlan) ∧
      ((solve .standard sampleCatalog sampleSaw fieldPieces ⟨0, 0⟩).run.record (some .info)).2 =
        .error .sumOverflow := by
  have hrank : Packer.ranked fieldPieces = fieldPieces.flatMap Piece.copies :=
    List.mergeSort_of_pairwise (by decide)
  have hknown : Packer.checkAll sampleCatalog sampleSaw fieldPieces = .ok [sampleMaterial] := rfl
  have hoverflow : LinesOverflow .standard sampleCatalog sampleSaw fieldPieces :=
    .demand hknown (by decide)
  refine ⟨?_, record_solve_overflow rfl hoverflow ⟨0, 0⟩⟩
  rw [record_solve_value (fun h => Bool.noConfusion h.1), pack, hrank]
  rfl

end Guillotine
