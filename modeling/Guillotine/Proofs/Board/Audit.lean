import Guillotine.Proofs.Board.Exact
import Guillotine.Proofs.Plan.Run
import Guillotine.Proofs.Plane.Areas

/-! The audit of a sheet on which solid items were placed. It finds every item inside the usable
region, no two closer than the kerf, and no more area claimed than there is. What can stop it is an
edge that it looks at: items are widened by the kerf before they are compared, and a widened item
may reach beyond the longest length. Just then the audit faults instead of passing the sheet. -/
namespace Guillotine

open Region

/-! ### What the audit needs -/

/-- Whether the edges are there that are looked at to compare two placements, each of them widened
by the kerf in its turn. -/
def Placement.Comparable (kerf : Length) (p q : Placement) : Prop :=
  (p.rect.grown kerf kerf).Shows q.rect ∧ (q.rect.grown kerf kerf).Shows p.rect

instance (kerf : Length) (p q : Placement) : Decidable (p.Comparable kerf q) :=
  inferInstanceAs (Decidable (_ ∧ _))

/-- Whether all pairs of placements on a sheet can be compared. -/
def Layout.Auditable (l : Layout) (kerf : Length) : Prop :=
  l.placed.Pairwise (Placement.Comparable kerf)

instance (l : Layout) (kerf : Length) : Decidable (l.Auditable kerf) :=
  inferInstanceAs (Decidable (List.Pairwise _ _))

/-- Rectangles that are the kerf apart do not meet when one is widened by it. -/
theorem Rect.not_meets_of_apart {kerf : Length} {r s : Rect}
    (h : Apart kerf.toNat r.region s.region) : ¬ (r.grown kerf kerf).Meets s := by
  simp only [Meets, SpansMeet, grown, Length.toNat_addCapped, Apart, region] at *
  omega

namespace Audit

variable {kerf : Length} {a b : Placement} {placed : List Placement} {usable : Rect}

/-! ### Distances -/

theorem tooClose_eq (ha : a.rect.HasEdges) (hb : b.rect.HasEdges)
    (h : Apart kerf.toNat a.rect.region b.rect.region) :
    tooClose kerf a b = if a.Comparable kerf b then .ok false else .error .sumOverflow := by
  rw [tooClose, Rect.overlaps_eq hb, decide_eq_false (Rect.not_meets_of_apart h)]
  by_cases hshows : (a.rect.grown kerf kerf).Shows b.rect
  · rw [if_pos hshows]
    refine (Rect.overlaps_eq ha).trans (if_congr ?_ ?_ rfl)
    · exact (and_iff_right hshows).symm
    · rw [decide_eq_false (Rect.not_meets_of_apart h.symm)]
  · rw [if_neg hshows, if_neg fun hboth => hshows hboth.1]
    rfl

theorem firstTooClose_eq (ha : a.rect.HasEdges) (hplaced : ∀ b ∈ placed, b.rect.HasEdges)
    (h : ∀ b ∈ placed, Apart kerf.toNat a.rect.region b.rect.region) :
    firstTooClose kerf a placed =
      if ∀ b ∈ placed, a.Comparable kerf b then .ok none else .error .sumOverflow := by
  induction placed with
  | nil => simp [firstTooClose]
  | cons b placed ih =>
    rw [List.forall_mem_cons] at hplaced h
    rw [firstTooClose, tooClose_eq ha hplaced.1 h.1]
    by_cases hb : a.Comparable kerf b
    · rw [if_pos hb]
      refine (ih hplaced.2 h.2).trans (if_congr ?_ rfl rfl)
      rw [List.forall_mem_cons, and_iff_right hb]
    · rw [if_neg hb, if_neg fun hall => hb (hall b List.mem_cons_self)]
      rfl

theorem firstClosePair_eq (hplaced : ∀ p ∈ placed, p.rect.HasEdges)
    (h : placed.Pairwise fun a b => Apart kerf.toNat a.rect.region b.rect.region) :
    firstClosePair kerf placed =
      if placed.Pairwise (Placement.Comparable kerf) then .ok none else .error .sumOverflow := by
  induction h with
  | nil => simp [firstClosePair]
  | @cons a placed ha _ ih =>
    rw [List.forall_mem_cons] at hplaced
    rw [firstClosePair, firstTooClose_eq hplaced.1 hplaced.2 ha]
    by_cases hall : ∀ b ∈ placed, a.Comparable kerf b
    · rw [if_pos hall]
      refine (ih hplaced.2).trans (if_congr ?_ rfl rfl)
      rw [List.pairwise_cons, and_iff_right hall]
    · rw [if_neg hall, if_neg fun hpairs => hall (List.pairwise_cons.1 hpairs).1]
      rfl

/-! ### Bounds -/

theorem firstOutside_eq_none (hu : usable.HasEdges)
    (h : ∀ p ∈ placed, p.rect.region.Inside usable.region) :
    firstOutside usable placed = .ok none := by
  induction placed with
  | nil => rfl
  | cons p placed ih =>
    rw [List.forall_mem_cons] at h
    rw [firstOutside, Rect.contains_eq hu (hu.of_inside h.1), decide_eq_true h.1]
    exact ih h.2

theorem allInside_eq_true {rs : List Rect} (hu : usable.HasEdges)
    (h : ∀ r ∈ rs, r.region.Inside usable.region) : allInside usable rs = .ok true := by
  induction rs with
  | nil => rfl
  | cons r rs ih =>
    rw [List.forall_mem_cons] at h
    rw [allInside, Rect.contains_eq hu (hu.of_inside h.1), decide_eq_true h.1]
    exact ih h.2

end Audit

/-! ### Areas -/

/-- If what takes room on a sheet has no more area than is usable, all of its areas can be added. -/
theorem Layout.exists_areas {l : Layout} (h : (((l.placed.map Placement.rect ++ l.remainders).map
    Rect.region).map area).sum ≤ l.usable.region.area) :
    ∃ used free total, l.usedArea = .ok used ∧ Area.sum (l.remainders.map Rect.area) = .ok free ∧
      Area.add used free = .ok total ∧
      total.toNat =
        (((l.placed.map Placement.rect ++ l.remainders).map Rect.region).map area).sum := by
  have htotal : (((l.placed.map Placement.rect ++ l.remainders).map Rect.region).map area).sum =
      ((l.placed.map Placement.area).map UInt64.toNat).sum +
        ((l.remainders.map Rect.area).map UInt64.toNat).sum := by
    rw [List.map_append, List.map_append, List.sum_append]
    simp only [List.map_map]
    congr 2
    · exact List.map_congr_left fun p _ => Rect.area_region p.rect
    · exact List.map_congr_left fun r _ => Rect.area_region r
  rw [htotal, Rect.area_region] at h
  obtain ⟨used, hused, hused'⟩ := Area.exists_sum (l.placed.map Placement.area)
    (t := l.usable.area) (by omega)
  obtain ⟨free, hfree, hfree'⟩ := Area.exists_sum (l.remainders.map Rect.area)
    (t := l.usable.area) (by omega)
  have hlt := l.usable.area.toNat_lt
  obtain ⟨total, hadd, hadd'⟩ := Area.exists_add (a := used) (b := free)
    (by simp only [UInt64.size]; omega)
  exact ⟨used, free, total, hused, hfree, hadd, by omega⟩

/-! ### The whole audit -/

namespace Audit

variable {l : Layout} {kerf : Length}

theorem staysInside_value (hu : l.usable.HasEdges)
    (h : ∀ p ∈ l.placed, p.rect.region.Inside l.usable.region) :
    (staysInside l.placed l.usable).value = .ok true := by
  rw [staysInside, Logged.value_bind]
  show (firstOutside l.usable l.placed >>= _) = _
  rw [firstOutside_eq_none hu h]
  rfl

theorem keepsApart_value (hplaced : ∀ p ∈ l.placed, p.rect.HasEdges)
    (h : l.placed.Pairwise fun a b => Apart kerf.toNat a.rect.region b.rect.region) :
    (keepsApart l.placed kerf).value =
      if l.Auditable kerf then .ok true else .error .sumOverflow := by
  rw [keepsApart, Logged.value_bind]
  show (firstClosePair kerf l.placed >>= _) = _
  rw [firstClosePair_eq hplaced h]
  by_cases hall : l.placed.Pairwise (Placement.Comparable kerf)
  · rw [if_pos hall]
    exact (if_pos hall).symm
  · rw [if_neg hall]
    exact (if_neg hall).symm

theorem conservesArea_eq_true (h : (((l.placed.map Placement.rect ++ l.remainders).map
    Rect.region).map area).sum ≤ l.usable.region.area) : conservesArea l = .ok true := by
  obtain ⟨used, free, total, hused, hfree, hadd, htotal⟩ := Layout.exists_areas h
  have hle : total ≤ l.usable.area := by
    rw [UInt64.le_iff_toNat_le, htotal, ← Rect.area_region]
    exact h
  rw [conservesArea, hused, hfree]
  show (Area.add used free >>= _) = _
  rw [hadd]
  exact congrArg Except.ok (decide_eq_true hle)

/-- The audit passes what can be cut out of the usable region, unless it lacks an edge. -/
theorem passes_value (hu : l.usable.HasEdges) (h : Cuttable kerf.toNat l.usable.region
    ((l.placed.map Placement.rect ++ l.remainders).map Rect.region)) :
    (passes l kerf).value = if l.Auditable kerf then .ok true else .error .sumOverflow := by
  have hinside : ∀ r ∈ l.placed.map Placement.rect ++ l.remainders,
      r.region.Inside l.usable.region := fun r hr => h.inside _ (List.mem_map_of_mem hr)
  rw [List.forall_mem_append, List.forall_mem_map] at hinside
  have hedges : ∀ p ∈ l.placed, p.rect.HasEdges := fun p hp => hu.of_inside (hinside.1 p hp)
  have hapart : l.placed.Pairwise fun a b => Apart kerf.toNat a.rect.region b.rect.region := by
    have hpairs := List.pairwise_map.1 h.pairwise_apart
    rw [List.pairwise_append, List.pairwise_map] at hpairs
    exact hpairs.1
  rw [passes, Logged.value_bind, staysInside_value hu hinside.1]
  show ((keepsApart l.placed kerf >>= _) : Logged Bool).value = _
  rw [Logged.value_bind, keepsApart_value hedges hapart]
  by_cases hall : l.Auditable kerf
  · rw [if_pos hall]
    show ((liftM (conservesArea l) >>= _) : Logged Bool).value = _
    rw [conservesArea_eq_true (sum_area_le h.inside h.pairwise_apart)]
    show ((liftM (allInside l.usable l.remainders)) : Logged Bool).value = _
    rw [allInside_eq_true hu hinside.2]
    rfl
  · rw [if_neg hall]
    rfl

theorem quiet_keepsApart (placed : List Placement) (kerf : Length) :
    (keepsApart placed kerf).Quiet := by
  refine (Logged.quiet_lift _).bind fun close => ?_
  cases close with
  | none => exact Logged.quiet_pure true
  | some pair => exact (Logged.quiet_note _ _).bind fun _ => Logged.quiet_pure false

/-- No notice of an audit faults. -/
theorem quiet_passes (l : Layout) (kerf : Length) : (passes l kerf).Quiet := by
  have hstays : (staysInside l.placed l.usable).Quiet := by
    refine (Logged.quiet_lift _).bind fun outside => ?_
    cases outside with
    | none => exact Logged.quiet_pure true
    | some p => exact (Logged.quiet_note _ _).bind fun _ => Logged.quiet_pure false
  refine hstays.bind fun stays => ?_
  cases stays with
  | false => exact Logged.quiet_pure false
  | true =>
    refine (quiet_keepsApart l.placed kerf).bind fun keeps => ?_
    cases keeps with
    | false => exact Logged.quiet_pure false
    | true =>
      refine (Logged.quiet_lift _).bind fun conserves => ?_
      cases conserves with
      | false => exact Logged.quiet_pure false
      | true => exact Logged.quiet_lift _

end Audit

/-! ### Finishing -/

namespace Board

variable {b : Board} {m : Material} {saw : Saw} {s : Settings} {items : List Item}

theorem quiet_finish (b : Board) : b.finish.Quiet := by
  refine (Audit.quiet_passes _ _).bind fun ok => ?_
  cases ok with
  | true => exact Logged.quiet_pure _
  | false => exact Logged.quiet_fault _

/-- A sheet that can be cut as it is passes its audit, unless the audit lacks an edge. -/
theorem Feasible.finish (hb : b.Feasible) (v : Verbosity) : (b.finish.record v).2 =
    if b.layout.Auditable b.cutting.kerf then .ok b.layout else .error .sumOverflow := by
  rw [quiet_finish b v, Board.finish, Logged.value_bind, Audit.passes_value hb.edges hb.cuttable]
  by_cases hall : b.layout.Auditable b.cutting.kerf
  · rw [if_pos hall, if_pos hall]
    rfl
  · rw [if_neg hall, if_neg hall]
    rfl

/-- A sheet that can be cut is finished as it is, just if its placements can be compared. -/
theorem Feasible.returns_finish_iff (hb : b.Feasible) {l : Layout} :
    b.finish.Returns l ↔ b.layout.Auditable b.cutting.kerf ∧ b.layout = l := by
  have hvalue : b.finish.value = _ := (quiet_finish b none).symm.trans (hb.finish none)
  rw [Logged.Returns, hvalue]
  by_cases hall : b.layout.Auditable b.cutting.kerf
  · rw [if_pos hall, and_iff_right hall, Except.ok.injEq]
  · rw [if_neg hall]
    refine iff_of_false ?_ fun h => hall h.1
    rintro ⟨⟩

/-- All placements on a sheet can be compared if the sheet could be widened by the kerf. -/
theorem Feasible.auditable (hb : b.Feasible) (husable : saw.usable m = .ok b.usable)
    {kerf : Length} (hw : m.width.toNat + kerf.toNat < UInt32.size)
    (hh : m.height.toNat + kerf.toNat < UInt32.size) : b.layout.Auditable kerf := by
  have hspec := Saw.usable_spec husable
  have hwidth := hspec.width
  have hheight := hspec.height
  rw [← hspec.x] at hwidth
  rw [← hspec.y] at hheight
  have hgrown : ∀ p ∈ b.placed, (p.rect.grown kerf kerf).HasEdges := by
    intro p hp
    have hinside := hb.cuttable.inside p.rect.region
      (List.mem_map_of_mem (List.mem_append_left _ (List.mem_map_of_mem hp)))
    simp only [Inside, Rect.region, Rect.HasEdges, Rect.grown, Length.toNat_addCapped] at *
    omega
  refine List.Pairwise.imp_of_mem (R := fun _ _ => True) (fun hp hq _ => ?_)
    (List.pairwise_of_forall fun _ _ => trivial)
  exact ⟨⟨(hgrown _ hp).1, fun _ => (hgrown _ hp).2⟩, (hgrown _ hq).1, fun _ => (hgrown _ hq).2⟩

end Board

/-- Whatever solid items are offered to a new sheet, the audit of the filled sheet finds nothing to
object to. It passes the sheet just if no placement reaches beyond the longest length where it is
widened by the kerf to be compared with another one; else it faults. It passes every sheet that
could itself be widened by the kerf. -/
theorem fill_finish {m : Material} {index : UInt64} {saw : Saw} {s : Settings} {b : Board}
    {items : List Item} (h : Board.opened m index saw s = .ok b) (hsolid : ∀ i ∈ items, i.Solid) :
    ∃ b' rest, (∀ v, ((Packer.fill b items).record v).2 = .ok (b', rest)) ∧
      (∀ v, (b'.finish.record v).2 =
        if b'.layout.Auditable saw.kerf then .ok b'.layout else .error .sumOverflow) ∧
      (m.width.toNat + saw.kerf.toNat < UInt32.size →
        m.height.toNat + saw.kerf.toNat < UInt32.size → b'.layout.Auditable saw.kerf) := by
  obtain ⟨b', rest, hfill, -⟩ := Packer.fill_returns (Board.bounded_opened h) items
  obtain ⟨taken, hreached, hperm, -⟩ := Packer.fill_spec hfill (.opened h)
  obtain ⟨-, husable, hcutting⟩ := hreached.settled
  have hfeasible : b'.Feasible := hreached.feasible fun i hi =>
    hsolid i (hperm.subset (List.mem_append_left _ hi))
  refine ⟨b', rest, fun v => (Packer.quiet_fill b items v).trans hfill, fun v => ?_,
    hfeasible.auditable husable⟩
  have hfinish := hfeasible.finish v
  rwa [hcutting] at hfinish

/-- A sheet as long as can be, of which two pieces and a cut use up the length. -/
def railMaterial : Material := ⟨"rail", 4294967295, 10, 1, 0, none⟩

def railSaw : Saw := ⟨5, 0, 0, 0, 0⟩

def railItems : List Item :=
  [⟨"long", "rail", 4294967190, 10, false, 0, none, none⟩,
    ⟨"short", "rail", 100, 10, false, 0, none, none⟩]

def railBoard : Board :=
  ⟨railMaterial, 1, ⟨0, 0, 4294967295, 10⟩, .single ⟨0, 0, 4294967295, 10⟩, [],
    ⟨5, .shorterLeftoverAxis, 1⟩⟩

theorem opened_rail : Board.opened railMaterial 1 railSaw .standard = .ok railBoard := rfl

theorem solid_rail : ∀ i ∈ railItems, i.Solid := by
  simp [railItems, Item.Solid]

theorem fill_finish_rail :
    Board.opened railMaterial 1 railSaw .standard = .ok railBoard ∧ (∀ i ∈ railItems, i.Solid) ∧
      ∃ b' rest, (∀ v, ((Packer.fill railBoard railItems).record v).2 = .ok (b', rest)) ∧
        (∀ v, (b'.finish.record v).2 =
          if b'.layout.Auditable railSaw.kerf then .ok b'.layout else .error .sumOverflow) ∧
        (railMaterial.width.toNat + railSaw.kerf.toNat < UInt32.size →
          railMaterial.height.toNat + railSaw.kerf.toNat < UInt32.size →
            b'.layout.Auditable railSaw.kerf) :=
  ⟨opened_rail, solid_rail, fill_finish opened_rail solid_rail⟩

/-- The rail with both of its pieces, a cut apart. -/
def railFilled : Board :=
  { railBoard with
    free := ⟨[], 2⟩
    placed := [⟨"long", none, 0, 0, 4294967190, 10, false⟩,
      ⟨"short", none, 4294967195, 0, 100, 10, false⟩] }

/-- The audit of the filled rail faults: the short piece ends where the rail ends, and has no right
edge when it is widened by the kerf. -/
theorem finish_rail_overflows :
    Board.opened railMaterial 1 railSaw .standard = .ok railBoard ∧ (∀ i ∈ railItems, i.Solid) ∧
      (∀ v, ((Packer.fill railBoard railItems).record v).2 = .ok (railFilled, [])) ∧
        ∀ v, (railFilled.finish.record v).2 = .error .sumOverflow := by
  have hfill : (Packer.fill railBoard railItems).value = .ok (railFilled, []) := rfl
  have hfinish : railFilled.finish.value = .error .sumOverflow := rfl
  exact ⟨opened_rail, solid_rail, fun v => (Packer.quiet_fill railBoard railItems v).trans hfill,
    fun v => (Board.quiet_finish railFilled v).trans hfinish⟩

end Guillotine
