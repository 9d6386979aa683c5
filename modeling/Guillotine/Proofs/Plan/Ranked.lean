import Guillotine.Proofs.Plan.Blocks
import Guillotine.Proofs.Plan.Leftovers

/-! Rank order on the sheets. The items demanded are numbered, so that each of them has one rank
among all. Filling a sheet takes some of the items waiting and leaves the others, both in rank
order, and since only items wait that fit an empty sheet, the first of them is taken first, in the
corner. So every sheet opens with the best of what the sheets before it have left. -/
namespace Guillotine

variable {m : Material} {catalog : Catalog} {saw : Saw} {s : Settings} {pieces : List Piece}
  {elapsed : Duration} {plan : Plan}

/-! ### Ranks -/

/-- An item with its number in the order of the demand. -/
abbrev Numbered := Item × Nat

/-- All copies of all pieces, numbered piece by piece and copy by copy. -/
def numbered (pieces : List Piece) : List Numbered := (pieces.flatMap Piece.copies).zipIdx

namespace Numbered

/-- Whether one item ranks before another: it has the higher priority, or the same one and the
larger area, or the same ones and the lower number. -/
def Before (a b : Numbered) : Prop :=
  b.1.priority < a.1.priority ∨ a.1.priority = b.1.priority ∧
    (b.1.area < a.1.area ∨ a.1.area = b.1.area ∧ a.2 < b.2)

theorem Before.ne {a b : Numbered} (h : a.Before b) : a ≠ b := by
  rintro rfl
  simp only [Before, Int32.lt_iff_toInt_lt, UInt64.lt_iff_toNat_lt] at h
  omega

/-- What a stable sort puts first ranks before. -/
theorem before_of_zipIdxLE {a b : Numbered}
    (h : List.zipIdxLE Packer.ranksAtLeast a b = true) (hne : a.2 ≠ b.2) : a.Before b := by
  simp only [List.zipIdxLE, Packer.ranksAtLeast, Bool.or_eq_true, Bool.and_eq_true,
    decide_eq_true_eq, beq_iff_eq, Int32.lt_iff_toInt_lt, UInt64.le_iff_toNat_le,
    ← Int32.toInt_inj, Bool.if_false_right, Bool.if_true_right] at h
  simp only [Before, Int32.lt_iff_toInt_lt, UInt64.lt_iff_toNat_lt, ← Int32.toInt_inj,
    ← UInt64.toNat_inj]
  grind

/-- Items in rank order differ. -/
theorem nodup_of_pairwise {us : List Numbered} (h : us.Pairwise Before) : us.Nodup :=
  h.imp Before.ne

end Numbered

/-- The numbered items in rank order. -/
def rankedNumbered (pieces : List Piece) : List Numbered :=
  (numbered pieces).mergeSort (List.zipIdxLE Packer.ranksAtLeast)

theorem rankedNumbered_perm (pieces : List Piece) :
    (rankedNumbered pieces).Perm (numbered pieces) :=
  List.mergeSort_perm _ _

/-- Without their numbers these are the items as they are offered. -/
theorem map_fst_rankedNumbered (pieces : List Piece) :
    (rankedNumbered pieces).map Prod.fst = Packer.ranked pieces :=
  List.mergeSort_zipIdx

theorem pairwise_rankedNumbered (pieces : List Piece) :
    (rankedNumbered pieces).Pairwise Numbered.Before := by
  have hsorted := List.pairwise_mergeSort (List.zipIdxLE_trans Packer.ranksAtLeast_trans)
    (List.zipIdxLE_total Packer.ranksAtLeast_total) (numbered pieces)
  have hnumbers : ((rankedNumbered pieces).map Prod.snd).Nodup := by
    rw [((rankedNumbered_perm pieces).map Prod.snd).nodup_iff, numbered, List.zipIdx_map_snd]
    exact List.nodup_range'
  exact hsorted.imp₂ (fun _ _ => Numbered.before_of_zipIdxLE) (List.pairwise_map.1 hnumbers)

/-! ### The first item of a sheet -/

/-- The first placement on a sheet lies in the corner of its usable region. -/
theorem Board.Reached.first {b : Board} {items : List Item} (h : Reached m saw s items b)
    {p : Placement} (hp : b.placed.head? = some p) : p.x = b.usable.x ∧ p.y = b.usable.y := by
  induction h with
  | opened h =>
    obtain ⟨u, -, rfl⟩ := opened_eq_ok_iff.1 h
    cases hp
  | @placed items b b' i q hb h ih =>
    obtain ⟨spot, used, hput⟩ := place_returns_some_iff.1 h
    rw [hput.board] at hp ⊢
    dsimp only at hp ⊢
    by_cases hnone : b.placed = []
    · -- Nothing else was placed, so that the usable region was free.
      obtain rfl := hb.eq_nil hnone
      obtain ⟨index, hopened⟩ := hb.exists_opened
      obtain ⟨u, -, rfl⟩ := opened_eq_ok_iff.1 hopened
      have hused : used = u := by simpa using hput.committed.mem
      obtain rfl : q = p := by simpa using hp
      rw [hput.placement, hused]
      exact ⟨rfl, rfl⟩
    · rw [List.head?_append_of_ne_nil _ hnone] at hp
      exact ih hp

/-- A new sheet takes the first item offered, if it fits. -/
theorem Packer.fill_cons_opened {b b' : Board} {index : UInt64} {i : Item} {items rest : List Item}
    (hopened : Board.opened m index saw s = .ok b) (h : (fill b (i :: items)).Returns (b', rest))
    (hfits : i.fitsIn b.usable = true) :
    ∃ taken, Board.Reached m saw s (i :: taken) b' ∧ Parted items taken rest := by
  simp only [fill] at h
  obtain ⟨r, hr, h⟩ := Logged.returns_bind.1 h
  cases r with
  | none =>
    have hnone := (Board.noRoom_opened_iff hopened).1 (Board.place_returns_none_iff_noRoom.1 hr)
    rw [hfits] at hnone
    cases hnone
  | some r =>
    obtain ⟨b₁, p⟩ := r
    obtain ⟨taken, hreached, hparts, -⟩ := fill_parted (Logged.returns_note_bind.1 h)
      ((Board.Reached.opened hopened).placed hr)
    exact ⟨taken, hreached, hparts⟩

/-! ### Sheets in rank order -/

/-- Whether an item is the best of some items: it fits an empty sheet and is none of the earlier
ones, and it ranks before all others that do and are not. -/
structure Numbered.Best (all earlier : List Numbered) (usable : Rect) (u : Numbered) : Prop where
  mem : u ∈ all
  fits : u.1.fitsIn usable = true
  waiting : u ∉ earlier
  before : ∀ v ∈ all, v.1.fitsIn usable = true → v ∉ earlier → v = u ∨ u.Before v

/-- Whether the items taken lie on a sheet in rank order, the first one being the best of all but
the earlier ones and lying in the corner. -/
structure Layout.InRank (saw : Saw) (all earlier taken : List Numbered) (l : Layout) : Prop where
  usable : saw.usable l.material = .ok l.usable
  placed : List.Forall₂ (fun u p => p.IsOf u.1) taken l.placed
  inOrder : taken.Pairwise Numbered.Before
  first : ∃ u p, taken.head? = some u ∧ l.placed.head? = some p ∧
    u.Best all earlier l.usable ∧ p.x = saw.leftTrim ∧ p.y = saw.topTrim

/-- Whether items are taken by sheets one after the other, by each of them in rank order. -/
structure Layout.AllInRank (saw : Saw) (all : List Numbered) (takens : List (List Numbered))
    (ls : List Layout) : Prop where
  length : takens.length = ls.length
  sheet : ∀ (k : Nat) (taken : List Numbered) (l : Layout), takens[k]? = some taken →
    ls[k]? = some l →
      l.InRank saw all (takens.take k).flatten taken

section Best

variable {all all' earlier taken rest : List Numbered} {usable : Rect} {u : Numbered} {l : Layout}
  {ls : List Layout} {takens : List (List Numbered)}

/-- The best of the items that one sheet leaves is the best of all but those that it takes. -/
theorem Numbered.Best.later (h : u.Best rest earlier usable) (hparts : Parted all taken rest)
    (hall : all.Nodup) : u.Best all (taken ++ earlier) usable := by
  have hdisjoint := (List.nodup_append.1 (hparts.perm.nodup_iff.2 hall)).2.2
  refine ⟨hparts.sublist_right.subset h.mem, h.fits, ?_, fun v hv hfits hwaiting => ?_⟩
  · rw [List.mem_append, not_or]
    exact ⟨fun hu => hdisjoint u hu u h.mem rfl, h.waiting⟩
  · rw [List.mem_append, not_or] at hwaiting
    have hrest := (List.mem_append.1 (hparts.perm.symm.subset hv)).resolve_left hwaiting.1
    exact h.before v hrest hfits hwaiting.2

/-- Only the items that fit an empty sheet matter to what is best. -/
theorem Numbered.Best.of_subset (h : u.Best all earlier usable) (hsub : all ⊆ all')
    (hfits : ∀ v ∈ all', v.1.fitsIn usable = true → v ∈ all) : u.Best all' earlier usable :=
  ⟨hsub h.mem, h.fits, h.waiting, fun v hv hfit => h.before v (hfits v hv hfit) hfit⟩

namespace Layout

theorem InRank.imp (h : l.InRank saw all earlier taken)
    {earlier' : List Numbered}
    (hbest : ∀ u : Numbered, u.Best all earlier l.usable → u.Best all' earlier' l.usable) :
    l.InRank saw all' earlier' taken := by
  obtain ⟨u, p, hu, hp, hu', hplace⟩ := h.first
  exact ⟨h.usable, h.placed, h.inOrder, u, p, hu, hp, hbest u hu', hplace⟩

namespace AllInRank

theorem nil (all : List Numbered) : AllInRank saw all [] [] :=
  ⟨rfl, fun k _ _ h => by simp at h⟩

/-- A sheet takes its items before the others. -/
theorem cons (hl : l.InRank saw all [] taken) (hparts : Parted all taken rest) (hall : all.Nodup)
    (h : AllInRank saw rest takens ls) : AllInRank saw all (taken :: takens) (l :: ls) := by
  refine ⟨congrArg Nat.succ h.length, fun k tk lk htk hlk => ?_⟩
  cases k with
  | zero =>
    obtain rfl := Option.some.inj htk
    obtain rfl := Option.some.inj hlk
    exact hl
  | succ k =>
    rw [List.getElem?_cons_succ] at htk hlk
    exact (h.sheet k tk lk htk hlk).imp fun u hu => hu.later hparts hall

theorem imp (h : AllInRank saw all takens ls)
    (hbest : ∀ l ∈ ls, ∀ (earlier : List Numbered) (u : Numbered),
      u.Best all earlier l.usable → u.Best all' earlier l.usable) :
    AllInRank saw all' takens ls :=
  ⟨h.length, fun k taken l htaken hl =>
    (h.sheet k taken l htaken hl).imp (hbest l (List.mem_of_getElem? hl) _)⟩

end AllInRank

end Layout

end Best

namespace Packer

/-- A new sheet that is filled with items in rank order, all of which fit it, takes them in this
order, the best one first. -/
theorem inRank_of_fill {b b' : Board} {index : UInt64} {rest : List Item} {all : List Numbered}
    (hopened : Board.opened m index saw s = .ok b)
    (hfill : (fill b (all.map Prod.fst)).Returns (b', rest)) (hsome : all ≠ [])
    (hfits : ∀ v ∈ all, v.1.fitsIn b.usable = true) (hsorted : all.Pairwise Numbered.Before) :
    ∃ taken rest', b'.layout.InRank saw all [] taken ∧ b'.usable = b.usable ∧
      Parted all taken rest' ∧ rest'.map Prod.fst = rest := by
  cases all with
  | nil => exact absurd rfl hsome
  | cons u all =>
    have hu := hfits u List.mem_cons_self
    rw [List.map_cons] at hfill
    obtain ⟨taken, hreached, hparts⟩ := fill_cons_opened hopened hfill hu
    obtain ⟨ys, zs, hunits, rfl, rfl⟩ := hparts.exists_of_map
    have hmaterial : b'.layout.material = m := hreached.settled.1
    have husable : b'.usable = b.usable :=
      hreached.usable_eq (Board.Reached.opened hopened).settled.2.1
    have hspec := Saw.usable_spec hreached.settled.2.1
    have hholds := hreached.holds
    refine ⟨u :: ys, zs, ⟨?_, ?_, ?_, ?_⟩, husable, hunits.left, rfl⟩
    · rw [hmaterial]
      exact hreached.settled.2.1
    · rw [← List.map_cons] at hholds
      exact List.forall₂_map_left_iff.1 hholds
    · exact hsorted.sublist hunits.left.sublist_left
    · obtain ⟨p, ps, -, -, hplaced⟩ := List.forall₂_cons_left_iff.1 hholds
      have hhead : b'.placed.head? = some p := by rw [hplaced]; rfl
      obtain ⟨hx, hy⟩ := hreached.first hhead
      refine ⟨u, p, rfl, hhead, ⟨List.mem_cons_self, ?_, by simp, fun v hv _ _ => ?_⟩,
        hx.trans hspec.x, hy.trans hspec.y⟩
      · show u.1.fitsIn b'.usable = true
        rwa [husable]
      · exact (List.mem_cons.1 hv).imp_right ((List.pairwise_cons.1 hsorted).1 v)

/-- Sheets are filled in rank order with items all of which fit an empty one. -/
theorem Course.inRank {allowed index : Nat} {waiting left : List Item} {layouts : List Layout}
    (h : Course m saw s allowed index waiting layouts left) {usable : Rect}
    (husable : saw.usable m = .ok usable) {all : List Numbered}
    (hall : all.map Prod.fst = waiting) (hfits : ∀ v ∈ all, v.1.fitsIn usable = true)
    (hsorted : all.Pairwise Numbered.Before) :
    ∃ takens rest, Layout.AllInRank saw all takens layouts ∧
      (∀ l ∈ layouts, l.usable = usable) ∧ rest.map Prod.fst = left ∧
      (takens.flatten ++ rest).Perm all := by
  induction h generalizing all with
  | stopped => exact ⟨[], all, .nil all, by simp, hall, List.Perm.refl _⟩
  | done => exact ⟨[], all, .nil all, by simp, hall, List.Perm.refl _⟩
  | stuck hwaiting hopened hfill hnone =>
    -- A new sheet takes an item, since all of them fit it.
    obtain rfl := (Board.Reached.opened hopened).usable_eq husable
    subst hall
    exact absurd hnone (fill_opened hopened hfill hwaiting (List.forall_mem_map.2 hfits))
  | @sheet allowed index waiting rest left b b' layouts hwaiting hopened hfill _ _ ih =>
    obtain rfl := (Board.Reached.opened hopened).usable_eq husable
    subst hall
    obtain ⟨taken, rest', hl, hkept, hparts, rfl⟩ :=
      inRank_of_fill hopened hfill (fun h => hwaiting (by rw [h]; rfl)) hfits hsorted
    have hsub := hparts.sublist_right
    obtain ⟨takens, rest, hls, husables, hleft, hperm⟩ := ih rfl
      (fun v hv => hfits v (hsub.subset hv)) (hsorted.sublist hsub)
    refine ⟨taken :: takens, rest, .cons hl hparts (Numbered.nodup_of_pairwise hsorted) hls,
      List.forall_mem_cons.2 ⟨hkept, husables⟩, hleft, ?_⟩
    rw [List.flatten_cons, List.append_assoc]
    exact (hperm.append_left taken).trans hparts.perm

/-- The items of one material are packed in rank order. -/
theorem packMaterial_inRank {left : List Item} {layouts : List Layout} {all : List Numbered}
    (h : Packing.Returns (packMaterial m saw s (all.map Prod.fst)) (layouts, left))
    (hsorted : all.Pairwise Numbered.Before) :
    ∃ takens rest, Layout.AllInRank saw all takens layouts ∧ rest.map Prod.fst = left ∧
      (takens.flatten ++ rest).Perm all := by
  obtain ⟨u, rest, hu, hfill, rfl⟩ := returns_packMaterial_iff.1 h
  rw [List.filter_map] at hfill
  obtain ⟨takens, rest', hls, husables, rfl, hperm⟩ := (course_of_returns hfill).inRank hu rfl
    (fun v hv => (List.mem_filter.1 hv).2) (hsorted.filter _)
  refine ⟨takens, all.filter (fun v => !v.1.fitsIn u) ++ rest', ?_, ?_, ?_⟩
  · refine hls.imp fun l hl earlier v hv => ?_
    rw [husables l hl] at hv ⊢
    exact hv.of_subset List.filter_sublist.subset fun w hw hfits => List.mem_filter.2 ⟨hw, hfits⟩
  · rw [List.map_append, List.filter_map]
    rfl
  · exact (List.perm_append_comm_assoc ..).trans ((hperm.append_left _).trans
      (List.perm_append_comm.trans (List.filter_append_perm _ all)))

end Packer

open Packer

/-- What a solution does with the items demanded of one material: say which of them, numbered, each
sheet took. -/
structure Plan.InRank (saw : Saw) (pieces : List Piece) (plan : Plan) (code : String)
    (takens : List (List Numbered)) (rest : List Numbered) : Prop where
  sheets : Layout.AllInRank saw ((numbered pieces).filter fun u => u.1.material = code) takens
    (plan.ofMaterial code).layouts
  numbers : (plan.ofMaterial code).layouts.map (fun l => l.index.toNat) =
    List.range' 1 (plan.ofMaterial code).layouts.length
  unplaced : rest.map Prod.fst = (plan.ofMaterial code).unplaced
  perm : (takens.flatten ++ rest).Perm ((numbered pieces).filter fun u => u.1.material = code)

/-- Every solution respects the rank order: on each sheet the items lie in rank order, and the first
one on a sheet, in the corner inside the trims, is the best of those of its material that fit an
empty sheet and are not on an earlier one. -/
theorem solve_inRank (h : Packing.Returns (solve s catalog saw pieces elapsed) plan)
    (code : String) : ∃ takens rest, plan.InRank saw pieces code takens rest := by
  rw [returns_solve_iff, returns_pack_iff] at h
  obtain ⟨known, -, h⟩ := h
  have hranked : (ranked pieces).filter (fun i => i.material = code) =
      ((rankedNumbered pieces).filter fun u => u.1.material = code).map Prod.fst := by
    rw [← map_fst_rankedNumbered, List.filter_map]
    rfl
  have hperm := (rankedNumbered_perm pieces).filter fun u => u.1.material = code
  by_cases hcode : ∃ i ∈ ranked pieces, i.material = code
  · obtain ⟨m, layouts, left, -, hmaterial, hpart⟩ := packGroups_group h
      (fun g hg => material_of_mem_grouped hg) (nodup_grouped _) (mem_grouped hcode)
    rw [hranked] at hmaterial
    obtain ⟨takens, rest, hsheets, hleft, hall⟩ :=
      packMaterial_inRank hmaterial ((pairwise_rankedNumbered pieces).filter _)
    refine ⟨takens, rest, ?_, ?_, ?_, hall.trans hperm⟩ <;> rw [hpart]
    · exact hsheets.imp fun l _ earlier u hu =>
        hu.of_subset hperm.subset fun v hv _ => hperm.symm.subset hv
    · exact (packMaterial_numbers hmaterial).1
    · exact hleft
  · -- Nothing of this material is demanded.
    have hnone : code ∉ (grouped (ranked pieces)).map Prod.fst := by
      rwa [map_fst_grouped, List.mem_eraseDups, List.mem_map]
    have hnothing : (numbered pieces).filter (fun u => u.1.material = code) = [] := by
      rw [List.filter_eq_nil_iff]
      intro u hu hmaterial
      refine hcode ⟨u.1, ?_, of_decide_eq_true hmaterial⟩
      rw [← map_fst_rankedNumbered]
      exact List.mem_map_of_mem ((rankedNumbered_perm pieces).symm.subset hu)
    have hempty := (packGroups_codes h (fun g hg => material_of_mem_grouped hg)
      (nodup_grouped _)).ofMaterial_eq_nil hnone
    refine ⟨[], [], ?_, ?_, ?_, ?_⟩ <;> simp only [hempty, hnothing]
    · exact .nil []
    · rfl
    · rfl
    · exact List.Perm.refl []

/-- Of three equal doors, the first two open a sheet each. -/
theorem solve_inRank_doors :
    Packing.Returns (solve doorSettings sampleCatalog sampleSaw doorPieces ⟨0, 0⟩) doorPlan ∧
      ∃ takens rest, doorPlan.InRank sampleSaw doorPieces "oak" takens rest :=
  ⟨solve_doors, solve_inRank solve_doors "oak"⟩

end Guillotine
