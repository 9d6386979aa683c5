import Guillotine.Proofs.Plan.Leftovers
import Guillotine.Proofs.Plan.Separate
import Guillotine.Proofs.Plan.Watched

/-! Demands that are turned down. Each piece by itself gives a reason to turn a demand down or none,
and a demand is turned down for the first reason that any of its pieces gives. The check remembers
materials by their codes and looks at none of them twice; where each material is listed under its
own code this makes no difference. A demand that passes the check is never turned down later: its
codes are found, its sheets can be opened, and only a sum may still be too large, where areas or
sheets are. -/
namespace Guillotine

variable {α β : Type} {m : Material} {catalog : Catalog} {saw : Saw} {s : Settings}
  {pieces : List Piece} {elapsed : Duration} {plan : Plan}

/-! ### Reasons -/

/-- The first reason not to cut from a material: a flaw, trims as wide as it is, or trims as tall as
it is. -/
def Material.objection? (saw : Saw) (m : Material) : Option Rejection :=
  match m.flaw? with
  | some flaw => some (.invalidMaterial m.code flaw)
  | none =>
    if m.width.toNat ≤ saw.sideTrims then
      some (.noUsableSpace m.code .horizontal (Saw.usable.cut saw.sideTrims) m.width)
    else if m.height.toNat ≤ saw.endTrims then
      some (.noUsableSpace m.code .vertical (Saw.usable.cut saw.endTrims) m.height)
    else none

/-- The first reason not to cut a piece, whatever was checked before it: a flaw, a code without a
material, or a reason not to cut from this material. -/
def Piece.objection? (catalog : Catalog) (saw : Saw) (p : Piece) : Option Rejection :=
  match p.flaw? with
  | some flaw => some (.invalidPiece p.id flaw)
  | none =>
    match catalog p.material with
    | none => some (.unknownMaterial p.id p.material)
    | some m => m.objection? saw

/-- The first reason to turn a demand down. -/
def firstObjection? (catalog : Catalog) (saw : Saw) (pieces : List Piece) : Option Rejection :=
  if pieces = [] then some .nothingDemanded else pieces.findSome? (Piece.objection? catalog saw)

/-- Checking a material fails for the first reason not to cut from it, if there is one. -/
theorem Material.validate_usable_bind (saw : Saw) (m : Material) (x : Except Rejection α) :
    (do m.validate; let _ ← saw.usable m; x) =
      match m.objection? saw with
      | some r => .error r
      | none => x := by
  unfold validate objection? Saw.usable
  cases m.flaw? with
  | some flaw => rfl
  | none => split_ifs <;> rfl

theorem Material.objection?_eq_none_iff : m.objection? saw = none ↔
    m.flaw? = none ∧ saw.sideTrims < m.width.toNat ∧ saw.endTrims < m.height.toNat := by
  unfold objection?
  cases m.flaw? with
  | some flaw => simp
  | none => split_ifs <;> simp <;> omega

/-- A piece gives no reason just if it has no flaws and demands a material without flaws of which
the trims leave something along both axes. -/
theorem Piece.objection?_eq_none_iff {p : Piece} : p.objection? catalog saw = none ↔
    p.flaw? = none ∧ ∃ m, catalog p.material = some m ∧ m.flaw? = none ∧
      saw.sideTrims < m.width.toNat ∧ saw.endTrims < m.height.toNat := by
  unfold objection?
  cases p.flaw? with
  | some flaw => simp
  | none =>
    cases catalog p.material with
    | none => simp
    | some m => simp [Material.objection?_eq_none_iff]

theorem Piece.objection?_ne_none_iff {p : Piece} : p.objection? catalog saw ≠ none ↔
    p.flaw? ≠ none ∨ catalog p.material = none ∨ ∃ m, catalog p.material = some m ∧
      (m.flaw? ≠ none ∨ m.width.toNat ≤ saw.sideTrims ∨ m.height.toNat ≤ saw.endTrims) := by
  rw [Ne, objection?_eq_none_iff]
  cases catalog p.material with
  | none => simp
  | some m =>
    simp only [Option.some.injEq, exists_eq_left', reduceCtorEq, false_or, ← Nat.not_lt]
    tauto

/-- Some reason is given just if nothing is demanded or some piece gives one. -/
theorem firstObjection?_ne_none_iff : firstObjection? catalog saw pieces ≠ none ↔
    pieces = [] ∨ ∃ p ∈ pieces, p.objection? catalog saw ≠ none := by
  unfold firstObjection?
  split
  next h => simp [h]
  next h => simp [h, List.findSome?_eq_none_iff]

/-! ### The check -/

namespace Packer

/-- A piece without flaws of a material with a known code is passed over, and another material is
looked at. -/
theorem check_cons {known : List Material} {p : Piece} (hp : p.flaw? = none)
    (hm : catalog p.material = some m) :
    check catalog saw known (p :: pieces) =
      if (known.any fun k => k.code = m.code) = true then check catalog saw known pieces
      else match m.objection? saw with
        | some r => .error r
        | none => check catalog saw (known ++ [m]) pieces := by
  have hvalid : p.validate = .ok () := validate_eq_ok_iff.2 hp
  rw [← Material.validate_usable_bind, check, hvalid, hm]
  rfl

/-- The check of some pieces fails for the first reason that one of them gives, although it does not
look at materials whose codes are known. -/
theorem check_objection (hcatalog : ∀ code m, catalog code = some m → m.code = code)
    {known : List Material}
    (hknown : ∀ k ∈ known, catalog k.code = some k ∧ k.objection? saw = none) (r : Rejection) :
    check catalog saw known pieces = .error r ↔
      pieces.findSome? (Piece.objection? catalog saw) = some r := by
  have hsame : ∀ r' : Rejection, (Except.error r' : Except Rejection (List Material)) = .error r ↔
      some r' = some r := by simp
  induction pieces generalizing known with
  | nil => simp [check]
  | cons p ps ih =>
    rw [List.findSome?_cons, Piece.objection?]
    cases hp : p.flaw? with
    | some flaw =>
      rw [check, Piece.validate, hp]
      exact hsame _
    | none =>
      cases hm : catalog p.material with
      | none =>
        have hvalid : p.validate = .ok () := validate_eq_ok_iff.2 hp
        rw [check, hvalid, hm]
        exact hsame _
      | some m =>
        have hcode := hcatalog _ _ hm
        rw [check_cons hp hm]
        dsimp only
        split
        next hany =>
          -- The known material with this code is the one that the piece demands.
          obtain ⟨k, hk, hkm⟩ := List.any_eq_true.1 hany
          obtain ⟨hlisted, hnone⟩ := hknown k hk
          rw [of_decide_eq_true hkm, hcode, hm] at hlisted
          obtain rfl := Option.some.inj hlisted
          rw [hnone]
          exact ih hknown
        next =>
          cases hobjection : m.objection? saw with
          | some r' => exact hsame r'
          | none =>
            refine ih ?_
            rw [List.forall_mem_append, List.forall_mem_singleton]
            exact ⟨hknown, hcode.symm ▸ hm, hobjection⟩

/-- The check of a demand fails for the first reason to turn it down. -/
theorem checkAll_objection (hcatalog : ∀ code m, catalog code = some m → m.code = code)
    (r : Rejection) :
    checkAll catalog saw pieces = .error r ↔ firstObjection? catalog saw pieces = some r := by
  unfold checkAll firstObjection?
  simp only [List.isEmpty_iff]
  split
  · simp
  · exact check_objection hcatalog (by simp) r

end Packer

/-! ### Packing what passed the check -/

/-- Whether the lengths of a sheet are lengths even when it is widened by the kerf. -/
def Saw.Widens (saw : Saw) (m : Material) : Prop :=
  m.width.toNat + saw.kerf.toNat < UInt32.size ∧ m.height.toNat + saw.kerf.toNat < UInt32.size

namespace Packing

variable {large : Prop} {x : Packing α} {f : α → Packing β}

/-- Whether a step of packing returns, or a sum in it overflows because something is too large. -/
def Settles (large : Prop) (x : Packing α) : Prop :=
  (∃ a, Returns x a) ∨ large ∧ x.run.value = .error .sumOverflow

theorem Returns.settles {a : α} (h : Returns x a) : Settles large x := .inl ⟨a, h⟩

theorem settles_pure (a : α) : Settles large (pure a) := Returns.settles (returns_pure.2 rfl)

theorem Settles.mono {large' : Prop} (h : Settles large x) (hlarge : large → large') :
    Settles large' x :=
  h.imp_right fun ⟨hover, hvalue⟩ => ⟨hlarge hover, hvalue⟩

theorem Settles.bind (hx : Settles large x) (hf : ∀ a, Returns x a → Settles large (f a)) :
    Settles large (x >>= f) := by
  rcases hx with ⟨a, hx⟩ | ⟨hlarge, hx⟩
  · have hvalue : (x >>= f).run.value = (f a).run.value := by
      change (x.run >>= ExceptT.bindCont f).value = _
      rw [Logged.value_bind, show x.run.value = .ok (.ok a) from hx]
      rfl
    exact (hf a hx).imp (fun ⟨b, hb⟩ => ⟨b, hvalue.trans hb⟩) (And.imp_right hvalue.trans)
  · refine .inr ⟨hlarge, ?_⟩
    change (x.run >>= ExceptT.bindCont f).value = _
    rw [Logged.value_bind, hx]
    rfl

/-- Behind a step that returns, it matters only how the next one ends. -/
theorem Returns.settles_bind {a : α} (hx : Returns x a) (hf : Settles large (f a)) :
    Settles large (x >>= f) := by
  refine hx.settles.bind fun a' ha' => ?_
  rwa [← hx.unique ha']

theorem settles_lift {y : Logged α} (h : large) (hy : y.value = .error .sumOverflow) :
    Settles large (liftM y) := by
  refine .inr ⟨h, ?_⟩
  change (y >>= fun c => pure (Except.ok c)).value = _
  rw [Logged.value_bind, hy]
  rfl

end Packing

namespace Packer

open Packing

/-- Filling sheets with solid items settles. Only a sheet that cannot be widened by the kerf may be
too large. -/
theorem fillSheets_settles {u : Rect} (hu : saw.usable m = .ok u) (allowed index : Nat)
    {items : List Item} (hsolid : ∀ i ∈ items, i.Solid) :
    Settles (¬ saw.Widens m) (fillSheets m saw s allowed index items) := by
  induction allowed generalizing index items with
  | zero => exact settles_pure _
  | succ allowed ih =>
    rw [fillSheets]
    split
    next => exact settles_pure _
    next =>
      obtain ⟨b, hopened⟩ : ∃ b, Board.opened m (UInt64.ofNat index) saw s = .ok b :=
        ⟨_, Board.opened_eq_ok_iff.2 ⟨u, hu, rfl⟩⟩
      obtain ⟨b', rest, hfill, hfinish, hwidens⟩ := fill_finish hopened hsolid
      have hfill := hfill none
      have hfinish := hfinish none
      rw [Logged.record_none] at hfill hfinish
      obtain ⟨taken, -, hperm, -⟩ := fill_spec hfill (.opened hopened)
      have hrest : ∀ i ∈ rest, i.Solid :=
        fun i hi => hsolid i (hperm.subset (List.mem_append_right _ hi))
      have hfinished : Settles (¬ saw.Widens m) (liftM b'.finish) := by
        split at hfinish
        next => exact (returns_lift.2 hfinish).settles
        next hnot => exact settles_lift (fun h => hnot (hwidens h.1 h.2)) hfinish
      refine (returns_ofExcept.2 hopened).settles_bind ((returns_lift.2 hfill).settles_bind ?_)
      dsimp only
      split
      · exact settles_pure _
      · refine hfinished.bind fun l _ => (ih (index + 1) hrest).bind fun _ _ => ?_
        exact settles_pure _

/-- Packing solid items of a material of which the trims leave something settles. -/
theorem packMaterial_settles {u : Rect} (hu : saw.usable m = .ok u) {items : List Item}
    (hsolid : ∀ i ∈ items, i.Solid) : Settles (¬ saw.Widens m) (packMaterial m saw s items) := by
  rw [packMaterial]
  refine (returns_ofExcept.2 hu).settles_bind ?_
  simp only [List.partition_eq_filter_filter]
  refine (returns_notes _).settles_bind ?_
  refine (fillSheets_settles hu _ _ fun i hi => hsolid i (List.mem_of_mem_filter hi)).bind ?_
  rintro ⟨layouts, left⟩ -
  dsimp only
  split
  · exact settles_pure _
  · have hnote : ∀ text, Returns (liftM (Logged.note .info text) : Packing Unit) () :=
      fun _ => returns_lift.2 rfl
    exact (hnote _).settles_bind (settles_pure _)

/-- Packing groups of solid items settles where each code has a material of which the trims leave
something. -/
theorem packGroups_settles {known : List Material} {groups : List (String × List Item)}
    (hknown : ∀ g ∈ groups, ∃ m u, known.find? (fun m => m.code = g.1) = some m ∧
      saw.usable m = .ok u)
    (hsolid : ∀ g ∈ groups, ∀ i ∈ g.2, i.Solid) :
    Settles (∃ m ∈ known, ¬ saw.Widens m) (packGroups known saw s groups) := by
  induction groups with
  | nil => exact settles_pure _
  | cons g groups ih =>
    obtain ⟨code, items⟩ := g
    rw [List.forall_mem_cons] at hknown hsolid
    obtain ⟨m, u, hm, hu⟩ := hknown.1
    rw [packGroups, hm]
    have hmaterial := (packMaterial_settles (s := s) hu hsolid.1).mono
      fun h => (⟨m, List.mem_of_find?_eq_some hm, h⟩ : ∃ m ∈ known, ¬ saw.Widens m)
    refine hmaterial.bind ?_
    rintro ⟨layouts, left⟩ -
    exact (ih hknown.2 hsolid.2).bind fun _ _ => settles_pure _

end Packer

open Packer

theorem Saw.exists_usable (hside : saw.sideTrims < m.width.toNat)
    (hend : saw.endTrims < m.height.toNat) : ∃ u, saw.usable m = .ok u := by
  rw [Saw.usable, if_neg (Nat.not_le.2 hside), if_neg (Nat.not_le.2 hend)]
  exact ⟨_, rfl⟩

/-- A demand passes the check just if there is no reason to turn it down. -/
theorem exists_checkAll_iff (hcatalog : ∀ code m, catalog code = some m → m.code = code) :
    (∃ known, checkAll catalog saw pieces = .ok known) ↔
      firstObjection? catalog saw pieces = none := by
  cases hcheck : checkAll catalog saw pieces with
  | error r =>
    rw [(checkAll_objection hcatalog r).1 hcheck]
    simp
  | ok known =>
    simp only [Except.ok.injEq, exists_eq', Option.eq_none_iff_forall_not_mem,
      Option.mem_def, ← checkAll_objection hcatalog, hcheck, reduceCtorEq, not_false_eq_true,
      implies_true]

/-- In a demand that passes the check, the code of each group of items is found, and the trims leave
something of its material. -/
theorem find?_grouped (hcatalog : ∀ code m, catalog code = some m → m.code = code)
    {known : List Material} (hknown : checkAll catalog saw pieces = .ok known)
    {g : String × List Item} (hg : g ∈ grouped (ranked pieces)) :
    ∃ m u, known.find? (fun m => m.code = g.1) = some m ∧ saw.usable m = .ok u := by
  have hcode := List.mem_map_of_mem (f := Prod.fst) hg
  rw [map_fst_grouped, List.mem_eraseDups, List.mem_map] at hcode
  obtain ⟨i, hi, hig⟩ := hcode
  obtain ⟨p, hp, hip⟩ := exists_piece_of_mem_copies ((ranked_perm pieces).subset hi)
  have hnone : p.objection? catalog saw = none := by
    by_contra hobjects
    exact firstObjection?_ne_none_iff.2 (.inr ⟨p, hp, hobjects⟩)
      ((exists_checkAll_iff hcatalog).1 ⟨known, hknown⟩)
  obtain ⟨-, m, hm, -, hside, hend⟩ := Piece.objection?_eq_none_iff.1 hnone
  obtain ⟨u, hu⟩ := Saw.exists_usable hside hend
  have hfound := congrFun (checkAll_ofList hknown) p.material
  rw [Catalog.demanded_eq hcatalog hp, hm, ← hip, hig] at hfound
  exact ⟨m, u, hfound, hu⟩

/-- A demand that passes the check is packed, unless one of its materials is too large. -/
theorem pack_settles (hcatalog : ∀ code m, catalog code = some m → m.code = code)
    {known : List Material} (hknown : checkAll catalog saw pieces = .ok known) :
    Packing.Settles (∃ p ∈ pieces, ∃ m, catalog p.material = some m ∧ ¬ saw.Widens m)
      (pack s catalog saw pieces) := by
  have hsolid : ∀ g ∈ grouped (ranked pieces), ∀ i ∈ g.2, i.Solid := by
    intro g hg i hi
    have hcopy := ((grouped_perm _).trans (ranked_perm pieces)).subset
      (List.mem_flatMap.2 ⟨g, hg, hi⟩)
    obtain ⟨p, hp, hip⟩ := List.mem_flatMap.1 hcopy
    exact Plan.Packed.solid_of_mem_copies ((checkAll_spec hknown).pieces p hp) hip
  have hdemanded : (∃ m ∈ known, ¬ saw.Widens m) →
      ∃ p ∈ pieces, ∃ m, catalog p.material = some m ∧ ¬ saw.Widens m := by
    rintro ⟨m, hm, hlarge⟩
    obtain ⟨-, p, hp, hpm⟩ := accepted_of_checkAll hknown m hm
    exact ⟨p, hp, m, hpm, hlarge⟩
  have hgroups := (packGroups_settles (s := s) (fun g hg => find?_grouped hcatalog hknown hg)
    hsolid).mono hdemanded
  have hnote : ∀ text, Packing.Returns (liftM (Logged.noteChecked .info text) : Packing Unit) () :=
    fun _ => Packing.returns_lift.2 rfl
  unfold pack
  refine (Packing.returns_ofExcept.2 hknown).settles_bind ((hnote _).settles_bind ?_)
  refine hgroups.bind fun plan hplan => ?_
  rw [if_pos (packGroups_accountsFor hplan)]
  exact Packing.settles_pure _

/-! ### What an observer sees -/

theorem LinesOverflow.exists_known (h : LinesOverflow s catalog saw pieces) :
    ∃ known, checkAll catalog saw pieces = .ok known := by
  cases h with
  | demand hknown _ => exact ⟨_, hknown⟩
  | sheets hplan _ =>
    obtain ⟨known, hknown, -⟩ := returns_pack_iff.1 hplan
    exact ⟨known, hknown⟩

/-- Whoever watches sees a demand turned down that does not pass the check. -/
theorem record_solve_rejected {r : Rejection} (h : checkAll catalog saw pieces = .error r)
    (v : Verbosity) (elapsed : Duration) :
    ((solve s catalog saw pieces elapsed).run.record v).2 = .ok (.error r) := by
  have hquiet : ¬ LinesOverflow s catalog saw pieces := by
    intro hlines
    obtain ⟨known, hknown⟩ := hlines.exists_known
    rw [h] at hknown
    cases hknown
  rw [record_solve_value fun hboth => hquiet hboth.2, pack, h]
  rfl

/-- Why a sum may overflow for an observer of a packing that is not turned down: a line of level
`info` cannot be worked out, or a sheet cannot be widened by the kerf. -/
inductive TooLarge (s : Settings) (catalog : Catalog) (saw : Saw) (pieces : List Piece)
    (v : Verbosity) : Prop
  | lines (hv : v.admits .info = true) (h : LinesOverflow s catalog saw pieces)
  | sheet {p : Piece} {m : Material} (hp : p ∈ pieces) (hm : catalog p.material = some m)
    (h : ¬ saw.Widens m)

/-- Whoever watches sees a plan where a demand passes the check, unless something is too large. -/
theorem record_solve_checked (hcatalog : ∀ code m, catalog code = some m → m.code = code)
    {known : List Material} (h : checkAll catalog saw pieces = .ok known) (v : Verbosity)
    (elapsed : Duration) :
    (∃ plan, ((solve s catalog saw pieces elapsed).run.record v).2 = .ok (.ok plan)) ∨
      TooLarge s catalog saw pieces v ∧
        ((solve s catalog saw pieces elapsed).run.record v).2 = .error .sumOverflow := by
  by_cases hlines : v.admits .info = true ∧ LinesOverflow s catalog saw pieces
  · exact .inr ⟨.lines hlines.1 hlines.2, record_solve_overflow hlines.1 hlines.2 elapsed⟩
  · rw [record_solve_value hlines]
    exact (pack_settles hcatalog h).imp_right
      (And.imp_left fun ⟨_, hp, _, hm, hlarge⟩ => .sheet hp hm hlarge)

/-- A demand is turned down exactly for the first reason that one of its pieces gives, each of them
looked at by itself. Where each material is listed under its own code, this is so for every
observer; what is turned down are the demands without pieces and those with a piece that gives a
reason. Any other demand is packed, unless something is so large that a sum overflows. -/
theorem solve_rejected (hcatalog : ∀ code m, catalog code = some m → m.code = code) (s : Settings)
    (saw : Saw) (pieces : List Piece) (elapsed : Duration) (v : Verbosity) :
    (∀ r, ((solve s catalog saw pieces elapsed).run.record v).2 = .ok (.error r) ↔
      firstObjection? catalog saw pieces = some r) ∧
    (firstObjection? catalog saw pieces ≠ none ↔ pieces = [] ∨ ∃ p ∈ pieces,
      p.flaw? ≠ none ∨ catalog p.material = none ∨ ∃ m, catalog p.material = some m ∧
        (m.flaw? ≠ none ∨ m.width.toNat ≤ saw.sideTrims ∨ m.height.toNat ≤ saw.endTrims)) ∧
    (firstObjection? catalog saw pieces = none →
      (∃ plan, ((solve s catalog saw pieces elapsed).run.record v).2 = .ok (.ok plan)) ∨
        TooLarge s catalog saw pieces v ∧
          ((solve s catalog saw pieces elapsed).run.record v).2 = .error .sumOverflow) := by
  refine ⟨fun r => ?_, ?_, fun hnone => ?_⟩
  · rw [← checkAll_objection hcatalog]
    refine ⟨fun hsees => ?_, fun hcheck => record_solve_rejected hcheck v elapsed⟩
    cases hcheck : checkAll catalog saw pieces with
    | error r' =>
      rw [record_solve_rejected hcheck] at hsees
      obtain rfl := Except.error.inj (Except.ok.inj hsees)
      rfl
    | ok known =>
      rcases record_solve_checked hcatalog hcheck v elapsed with ⟨plan, hplan⟩ | ⟨-, hoverflow⟩
      · cases hplan.symm.trans hsees
      · cases hoverflow.symm.trans hsees
  · simp only [firstObjection?_ne_none_iff, Piece.objection?_ne_none_iff]
  · obtain ⟨known, hknown⟩ := (exists_checkAll_iff hcatalog).2 hnone
    exact record_solve_checked hcatalog hknown v elapsed

/-! ### A demand with two reasons -/

/-- A piece that can be cut, one of a material that is not listed, and one without a width. -/
def faultyPieces : List Piece :=
  [⟨"lid", "oak", 5, 6, 1, false, 1, none, none⟩, ⟨"shelf", "ash", 3, 3, 1, true, 0, none, none⟩,
    ⟨"line", "oak", 0, 2, 1, true, 0, none, none⟩]

theorem code_of_mixed : ∀ code m, mixedCatalog code = some m → m.code = code :=
  fun _ _ => Material.code_of_find?

/-- It is turned down for the material that is not listed. -/
theorem solve_rejected_faulty :
    (∀ code m, mixedCatalog code = some m → m.code = code) ∧
      firstObjection? mixedCatalog sampleSaw faultyPieces =
        some (.unknownMaterial "shelf" "ash") ∧
      ∀ v, ((solve .standard mixedCatalog sampleSaw faultyPieces ⟨0, 0⟩).run.record v).2 =
        .ok (.error (.unknownMaterial "shelf" "ash")) :=
  ⟨code_of_mixed, rfl, fun v =>
    ((solve_rejected code_of_mixed .standard sampleSaw faultyPieces ⟨0, 0⟩ v).1 _).2 rfl⟩

end Guillotine
