import Guillotine.Proofs.Plan.Accounts

/-! Materials are packed independently. Ranking is stable, so it commutes with leaving items out,
and the items of one material are ranked, grouped and packed in the same way whether or not others
are demanded with them. -/
namespace Guillotine

/-! ### Stable sorting -/

section Sorting

variable {α : Type} {le : α → α → Bool}

end Sorting

variable {m : Material} {catalog : Catalog} {saw : Saw} {s : Settings} {pieces : List Piece}
  {elapsed : Duration} {plan : Plan}

/-! ### Ranking and grouping -/

namespace Packer

theorem ranksAtLeast_trans (i j k : Item) (hij : ranksAtLeast i j = true)
    (hjk : ranksAtLeast j k = true) : ranksAtLeast i k = true := by
  simp only [ranksAtLeast, Bool.or_eq_true, Bool.and_eq_true, decide_eq_true_eq, beq_iff_eq,
    Int32.lt_iff_toInt_lt, UInt64.le_iff_toNat_le, ← Int32.toInt_inj] at *
  omega

theorem ranksAtLeast_total (i j : Item) : (ranksAtLeast i j || ranksAtLeast j i) = true := by
  simp only [ranksAtLeast, Bool.or_eq_true, Bool.and_eq_true, decide_eq_true_eq, beq_iff_eq,
    Int32.lt_iff_toInt_lt, UInt64.le_iff_toNat_le, ← Int32.toInt_inj]
  omega

/-- The items of one material, if there are any, are one of the groups of all items. -/
theorem mem_grouped {items : List Item} {code : String} (h : ∃ i ∈ items, i.material = code) :
    (code, items.filter fun i => i.material = code) ∈ grouped items := by
  obtain ⟨i, hi, rfl⟩ := h
  exact List.mem_map.2 ⟨i.material, List.mem_eraseDups.2 (List.mem_map_of_mem hi), rfl⟩

/-! ### Checking one material -/

/-- Whether a material is accepted for cutting. -/
def Accepted (saw : Saw) (m : Material) : Prop :=
  m.validate = .ok () ∧ ∃ u, saw.usable m = .ok u

/-- What a check adds to the known materials are accepted materials of the pieces. -/
theorem forall_mem_of_check {P : Material → Prop} {known known' : List Material}
    (h : check catalog saw known pieces = .ok known') (hknown : ∀ m ∈ known, P m)
    (hnew : ∀ p ∈ pieces, ∀ m, catalog p.material = some m → Accepted saw m → P m) :
    ∀ m ∈ known', P m := by
  induction pieces generalizing known with
  | nil =>
    obtain rfl := Except.ok.inj h
    exact hknown
  | cons p ps ih =>
    rw [List.forall_mem_cons] at hnew
    obtain ⟨-, m, hm, h⟩ := check_cons_eq_ok_iff.1 h
    split at h
    next => exact ih h hknown hnew.2
    next =>
      obtain ⟨hvalid, husable, h⟩ := h
      refine ih h ?_ hnew.2
      rw [List.forall_mem_append, List.forall_mem_singleton]
      exact ⟨hknown, hnew.1 m hm ⟨hvalid, husable⟩⟩

/-- A check of a whole demand finds accepted materials that the pieces are to be cut from. -/
theorem accepted_of_checkAll {known : List Material}
    (h : checkAll catalog saw pieces = .ok known) :
    ∀ m ∈ known, Accepted saw m ∧ ∃ p ∈ pieces, catalog p.material = some m := by
  unfold checkAll at h
  split at h
  · cases h
  · exact forall_mem_of_check h (by simp) fun p hp m hm haccepted => ⟨haccepted, p, hp, hm⟩

/-- Checking pieces without flaws of a material whose code is known finds nothing new. -/
theorem check_again {known : List Material} {code : String} (hm : catalog code = some m)
    (hknown : (known.any fun k => k.code = m.code) = true)
    (hpieces : ∀ p ∈ pieces, p.flaw? = none ∧ p.material = code) (later : List Piece) :
    check catalog saw known (pieces ++ later) = check catalog saw known later := by
  induction pieces with
  | nil => rfl
  | cons p ps ih =>
    rw [List.forall_mem_cons] at hpieces
    have hvalid : p.validate = .ok () := validate_eq_ok_iff.2 hpieces.1.1
    rw [List.cons_append, check, hvalid, hpieces.1.2, hm]
    exact (if_pos hknown).trans (ih hpieces.2)

end Packer

/-! ### Plans for more than one material -/

/-- What a plan has for the material with a code. -/
def Plan.ofMaterial (plan : Plan) (code : String) : Plan where
  layouts := plan.layouts.filter fun l => l.material.code = code
  unplaced := plan.unplaced.filter fun i => i.material = code

/-- Whether all sheets and items of a plan have codes with a property. -/
structure Plan.CodesIn (C : String → Prop) (plan : Plan) : Prop where
  layouts : ∀ l ∈ plan.layouts, C l.material.code
  unplaced : ∀ i ∈ plan.unplaced, C i.material

namespace Plan.CodesIn

variable {C : String → Prop} {code : String}

theorem ofMaterial_eq_self (h : plan.CodesIn (· = code)) : plan.ofMaterial code = plan := by
  rw [ofMaterial, Packer.filter_code_eq_self h.layouts,
    List.filter_eq_self.2 fun i hi => decide_eq_true (h.unplaced i hi)]

theorem ofMaterial_eq_nil (h : plan.CodesIn C) (hcode : ¬ C code) :
    plan.ofMaterial code = ⟨[], []⟩ := by
  have hlayouts : ∀ l ∈ plan.layouts, l.material.code ≠ code := by
    rintro l hl rfl
    exact hcode (h.layouts l hl)
  have hunplaced : ∀ i ∈ plan.unplaced, ¬ decide (i.material = code) = true := by
    intro i hi heq
    exact hcode (of_decide_eq_true heq ▸ h.unplaced i hi)
  rw [ofMaterial, Packer.filter_code_eq_nil hlayouts, List.filter_eq_nil_iff.2 hunplaced]

end Plan.CodesIn

/-- What two plans have for a material together. -/
theorem Plan.ofMaterial_append (p q : Plan) (code : String) :
    (⟨p.layouts ++ q.layouts, p.unplaced ++ q.unplaced⟩ : Plan).ofMaterial code =
      ⟨(p.ofMaterial code).layouts ++ (q.ofMaterial code).layouts,
        (p.ofMaterial code).unplaced ++ (q.ofMaterial code).unplaced⟩ := by
  simp only [ofMaterial, List.filter_append]

namespace Packer

/-- A plan for items of a material has its code only. -/
theorem packMaterial_codes {items left : List Item} {layouts : List Layout}
    (h : Packing.Returns (packMaterial m saw s items) (layouts, left))
    (hcode : ∀ i ∈ items, i.material = m.code) :
    (⟨layouts, left⟩ : Plan).CodesIn (· = m.code) := by
  obtain ⟨takens, hdealt, hall, -⟩ := packMaterial_spec h hcode
  exact ⟨fun l hl => congrArg Material.code (hall l hl),
    fun i hi => hcode i (hdealt.perm.subset (List.mem_append_right _ hi))⟩

/-- A plan for groups of items has their codes only. -/
theorem packGroups_codes {known : List Material} {groups : List (String × List Item)}
    (h : Packing.Returns (packGroups known saw s groups) plan)
    (hcode : ∀ g ∈ groups, ∀ i ∈ g.2, i.material = g.1) (hnodup : (groups.map Prod.fst).Nodup) :
    plan.CodesIn (· ∈ groups.map Prod.fst) := by
  obtain ⟨takens, hdealt, hall, -⟩ := packGroups_spec h hcode hnodup
  refine ⟨fun l hl => (hall l hl).2, fun i hi => ?_⟩
  obtain ⟨g, hg, hig⟩ := List.mem_flatMap.1 (hdealt.perm.subset (List.mem_append_right _ hi))
  exact hcode g hg i hig ▸ List.mem_map_of_mem hg

/-- Each group is packed as if there were no others. -/
theorem packGroups_group {known : List Material} {groups : List (String × List Item)}
    {code : String} {items : List Item}
    (h : Packing.Returns (packGroups known saw s groups) plan)
    (hcode : ∀ g ∈ groups, ∀ i ∈ g.2, i.material = g.1) (hnodup : (groups.map Prod.fst).Nodup)
    (hgroup : (code, items) ∈ groups) :
    ∃ m layouts left, known.find? (fun m => m.code = code) = some m ∧
      Packing.Returns (packMaterial m saw s items) (layouts, left) ∧
      plan.ofMaterial code = ⟨layouts, left⟩ := by
  induction groups generalizing plan with
  | nil => cases hgroup
  | cons g groups ih =>
    obtain ⟨code', items'⟩ := g
    rw [List.forall_mem_cons] at hcode
    rw [List.map_cons, List.nodup_cons] at hnodup
    simp only [packGroups] at h
    split at h
    next => exact (Packing.not_returns_fault h).elim
    next m hm =>
      have hfound : m.code = code' := Material.code_of_find? hm
      obtain ⟨⟨layouts, left⟩, hmaterial, h⟩ := Packing.returns_bind.1 h
      obtain ⟨rest, hrest, h⟩ := Packing.returns_bind.1 h
      obtain rfl := Packing.returns_pure.1 h
      have hfirst := packMaterial_codes hmaterial fun i hi => (hcode.1 i hi).trans hfound.symm
      have hothers := packGroups_codes hrest hcode.2 hnodup.2
      rw [hfound] at hfirst
      have hparts := Plan.ofMaterial_append ⟨layouts, left⟩ rest code
      rcases List.mem_cons.1 hgroup with heq | hlater
      · -- The group is the first one, and no later one has its code.
        obtain ⟨rfl, rfl⟩ := Prod.mk.inj heq
        refine ⟨m, layouts, left, hm, hmaterial, hparts.trans ?_⟩
        rw [hfirst.ofMaterial_eq_self, hothers.ofMaterial_eq_nil hnodup.1, List.append_nil,
          List.append_nil]
      · -- The group is a later one, and the first one has another code.
        have hne : ¬ code = code' := by
          rintro rfl
          exact hnodup.1 (List.mem_map.2 ⟨_, hlater, rfl⟩)
        obtain ⟨m', layouts', left', hm', hmaterial', hplan⟩ := ih hrest hcode.2 hnodup.2 hlater
        refine ⟨m', layouts', left', hm', hmaterial', hparts.trans ?_⟩
        rw [hfirst.ofMaterial_eq_nil hne, hplan, List.nil_append, List.nil_append]

theorem quantity_pos {p : Piece} (hflaw : p.flaw? = none) : 0 < p.quantity.toNat := by
  rw [Nat.pos_iff_ne_zero, Ne, ← UInt32.toNat_zero, UInt32.toNat_inj]
  intro hnone
  simp only [Piece.flaw?, hnone] at hflaw
  split at hflaw <;> cases hflaw

end Packer

/-! ### One material among others -/

open Packer

def pineMaterial : Material := ⟨"pine", 6, 6, 1, 2, none⟩

def mixedCatalog : Catalog := Catalog.ofList [sampleMaterial, pineMaterial]

/-- Pieces of two materials in turn, one of which fits nowhere. -/
def mixedPieces : List Piece :=
  [⟨"lid", "oak", 5, 6, 1, false, 1, none, none⟩, ⟨"disc", "pine", 5, 5, 1, true, 0, none, none⟩,
    ⟨"tray", "pine", 3, 3, 1, true, 0, none, none⟩, ⟨"foot", "oak", 2, 2, 1, true, 0, none, none⟩]

def mixedPlan : Plan where
  layouts :=
    [⟨sampleMaterial, 1, ⟨1, 1, 8, 6⟩,
      [⟨"lid", none, 1, 1, 5, 6, false⟩, ⟨"foot", none, 7, 1, 2, 2, false⟩], [⟨7, 4, 2, 3⟩]⟩,
    ⟨pineMaterial, 1, ⟨1, 1, 4, 4⟩, [⟨"tray", none, 1, 1, 3, 3, false⟩], []⟩]
  unplaced := [⟨"disc", "pine", 5, 5, true, 0, none, none⟩]

/-- The pieces of two materials are packed on a sheet each, but for the disc. -/
theorem solve_mixed :
    Packing.Returns (solve .standard mixedCatalog sampleSaw mixedPieces ⟨0, 0⟩) mixedPlan := by
  have hrank : ranked mixedPieces = mixedPieces.flatMap Piece.copies :=
    List.mergeSort_of_pairwise (by decide)
  unfold solve pack
  rw [hrank]
  rfl

end Guillotine
