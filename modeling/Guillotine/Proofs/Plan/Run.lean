import Guillotine.Plan.Packer
import Guillotine.Proofs.Board.Placed
import Guillotine.Proofs.Board.Room

/-! A packing that returns. Each of its sheets came about by placing items on a new sheet of their
material, and the items taken by the sheets together with those left over are the copies of the
pieces, in another order. No sheet has room for an item of its material that went on a later sheet
or on none, and an item is left over only for a reason. The steps follow the packing from the inside
out: filling one sheet, filling sheets of one material, packing one material after the other. -/
namespace Guillotine

variable {m : Material} {catalog : Catalog} {saw : Saw} {s : Settings}

/-- The material that is found under a code has it. -/
theorem Material.code_of_find? {ms : List Material} {code : String}
    (h : (ms.find? fun m => m.code = code) = some m) : m.code = code := by
  simpa using List.find?_some h

namespace Catalog

/-- The materials that some pieces demand, by their codes: of several materials with one code, the
one demanded first. -/
def demanded (catalog : Catalog) (pieces : List Piece) : Catalog :=
  ofList (pieces.filterMap fun p => catalog p.material)

/-- Where each material is listed under its own code, a piece gets the material it demands. -/
theorem demanded_eq (hcatalog : ∀ code m, catalog code = some m → m.code = code)
    {pieces : List Piece} {p : Piece} (hp : p ∈ pieces) :
    catalog.demanded pieces p.material = catalog p.material := by
  have hlisted : ∀ m ∈ pieces.filterMap fun p => catalog p.material,
      catalog m.code = some m := by
    intro m hm
    obtain ⟨q, -, hq⟩ := List.mem_filterMap.1 hm
    exact (hcatalog _ _ hq).symm ▸ hq
  cases hfound : catalog.demanded pieces p.material with
  | none =>
    cases hp' : catalog p.material with
    | none => rfl
    | some m =>
      have hm : m ∈ pieces.filterMap fun p => catalog p.material :=
        List.mem_filterMap.2 ⟨p, hp, hp'⟩
      simpa [hcatalog _ _ hp'] using List.find?_eq_none.1 hfound m hm
  | some m =>
    have hcode : m.code = p.material := Material.code_of_find? hfound
    rw [← hcode, hlisted m (List.mem_of_find?_eq_some hfound)]

end Catalog

/-! ### Lists in two parts -/

section Parts

variable {α β : Type} {as bs cs : List α}

/-- Whether a list falls into two lists, in both of which its items stay in order. -/
inductive Parted : List α → List α → List α → Prop
  | nil : Parted [] [] []
  | left {a : α} {as bs cs : List α} (h : Parted as bs cs) : Parted (a :: as) (a :: bs) cs
  | right {a : α} {as bs cs : List α} (h : Parted as bs cs) : Parted (a :: as) bs (a :: cs)

namespace Parted

theorem perm (h : Parted as bs cs) : (bs ++ cs).Perm as := by
  induction h with
  | nil => exact List.Perm.refl _
  | left _ ih => exact ih.cons _
  | right _ ih => exact List.perm_middle.trans (ih.cons _)

theorem sublist_left (h : Parted as bs cs) : bs.Sublist as := by
  induction h with
  | nil => exact List.Sublist.slnil
  | left _ ih => exact ih.cons_cons _
  | right _ ih => exact ih.cons _

theorem sublist_right (h : Parted as bs cs) : cs.Sublist as := by
  induction h with
  | nil => exact List.Sublist.slnil
  | left _ ih => exact ih.cons _
  | right _ ih => exact ih.cons_cons _

/-- Where the images of some items fall into two lists, so do the items. -/
theorem exists_of_map {f : β → α} {xs : List β} (h : Parted (xs.map f) bs cs) :
    ∃ ys zs, Parted xs ys zs ∧ ys.map f = bs ∧ zs.map f = cs := by
  induction xs generalizing bs cs with
  | nil =>
    cases h
    exact ⟨[], [], .nil, rfl, rfl⟩
  | cons x xs ih =>
    rw [List.map_cons] at h
    cases h with
    | left h =>
      obtain ⟨ys, zs, hparts, rfl, rfl⟩ := ih h
      exact ⟨x :: ys, zs, .left hparts, rfl, rfl⟩
    | right h =>
      obtain ⟨ys, zs, hparts, rfl, rfl⟩ := ih h
      exact ⟨ys, x :: zs, .right hparts, rfl, rfl⟩

end Parted

end Parts

namespace Packer

/-! ### Checking -/

/-- What a check that succeeds has found. -/
structure Checks (catalog : Catalog) (known : List Material) (pieces : List Piece) : Prop where
  pieces : ∀ p ∈ pieces, p.flaw? = none
  known : ∀ m ∈ known, ∃ code, catalog code = some m

theorem validate_eq_ok_iff {p : Piece} {u : Unit} : p.validate = .ok u ↔ p.flaw? = none := by
  unfold Piece.validate
  cases p.flaw? <;> simp

/-- What a check has done with its first piece if it succeeds: the piece has no flaws, its material
is listed, and unless a material with the same code is known, it is accepted and known from then
on. -/
theorem check_cons_eq_ok_iff {known known' : List Material} {p : Piece} {ps : List Piece} :
    check catalog saw known (p :: ps) = .ok known' ↔
      p.flaw? = none ∧ ∃ m, catalog p.material = some m ∧
        if (known.any fun k => k.code = m.code) = true then check catalog saw known ps = .ok known'
        else m.validate = .ok () ∧ (∃ u, saw.usable m = .ok u) ∧
          check catalog saw (known ++ [m]) ps = .ok known' := by
  rw [check, bind_eq_ok_iff]
  simp only [validate_eq_ok_iff, exists_const]
  refine and_congr_right fun _ => ?_
  cases catalog p.material with
  | none => simp
  | some m =>
    simp only [Option.some.injEq, exists_eq_left']
    split
    · rfl
    · simp only [bind_eq_ok_iff, exists_and_right]
      exact and_congr_left fun _ => ⟨fun ⟨(), hvalid⟩ => hvalid, fun hvalid => ⟨(), hvalid⟩⟩

theorem check_spec {known known' : List Material} {pieces : List Piece}
    (h : check catalog saw known pieces = .ok known')
    (hknown : ∀ m ∈ known, ∃ code, catalog code = some m) : Checks catalog known' pieces := by
  induction pieces generalizing known with
  | nil =>
    obtain rfl := Except.ok.inj h
    exact ⟨by simp, hknown⟩
  | cons p ps ih =>
    have hcons : p.flaw? = none → Checks catalog known' ps → Checks catalog known' (p :: ps) :=
      fun hp hps => ⟨List.forall_mem_cons.2 ⟨hp, hps.pieces⟩, hps.known⟩
    obtain ⟨hp, m, hm, h⟩ := check_cons_eq_ok_iff.1 h
    refine hcons hp ?_
    split at h
    next => exact ih h hknown
    next =>
      refine ih h.2.2 ?_
      rw [List.forall_mem_append, List.forall_mem_singleton]
      exact ⟨hknown, p.material, hm⟩

theorem checkAll_spec {known : List Material} {pieces : List Piece}
    (h : checkAll catalog saw pieces = .ok known) : Checks catalog known pieces := by
  unfold checkAll at h
  split at h
  · cases h
  · exact check_spec h (by simp)

/-- A check lists the materials demanded behind those known before. -/
theorem check_ofList {known known' : List Material} {pieces : List Piece}
    (h : check catalog saw known pieces = .ok known') (code : String) :
    Catalog.ofList known' code =
      (Catalog.ofList known code).or (catalog.demanded pieces code) := by
  induction pieces generalizing known with
  | nil =>
    obtain rfl := Except.ok.inj h
    simp [Catalog.demanded, Catalog.ofList]
  | cons p ps ih =>
    obtain ⟨-, m, hm, h⟩ := check_cons_eq_ok_iff.1 h
    have hdemanded : catalog.demanded (p :: ps) code =
        (Catalog.ofList [m] code).or (catalog.demanded ps code) := by
      simp only [Catalog.demanded, List.filterMap_cons, hm]
      show ([m] ++ _ : List Material).find? _ = _
      exact List.find?_append
    split at h
    next hany =>
      rw [ih h, hdemanded]
      by_cases hcode : m.code = code
      · -- A material with this code is known, so that this one does not count.
        subst hcode
        have hknown : (Catalog.ofList known m.code).isSome = true := by
          simpa [Catalog.ofList, List.find?_isSome] using hany
        obtain ⟨k, hk⟩ := Option.isSome_iff_exists.1 hknown
        rw [hk]
        rfl
      · have hnone : Catalog.ofList [m] code = none := by simp [Catalog.ofList, hcode]
        rw [hnone, Option.none_or]
    next =>
      rw [ih h.2.2, hdemanded, ← Option.or_assoc]
      congr 1
      exact List.find?_append

theorem checkAll_ofList {known : List Material} {pieces : List Piece}
    (h : checkAll catalog saw pieces = .ok known) :
    Catalog.ofList known = catalog.demanded pieces := by
  unfold checkAll at h
  split at h
  · cases h
  · funext code
    rw [check_ofList h]
    rfl

/-! ### Ranking and grouping -/

theorem ranked_perm (pieces : List Piece) :
    (ranked pieces).Perm (pieces.flatMap Piece.copies) :=
  List.mergeSort_perm _ _

theorem nodup_eraseDups (codes : List String) : codes.eraseDups.Nodup := by
  induction hn : codes.length using Nat.strongRecOn generalizing codes with
  | _ n ih =>
    cases codes with
    | nil => simp
    | cons c cs =>
      rw [List.eraseDups_cons, List.nodup_cons]
      refine ⟨by simp, ih _ ?_ _ rfl⟩
      rw [← hn]
      exact Nat.lt_succ_of_le (List.length_filter_le _ cs)

/-- Items sorted by codes that differ are those with one of the codes. -/
theorem flatMap_filter_perm {codes : List String} (hc : codes.Nodup) (items : List Item) :
    (codes.flatMap fun c => items.filter fun i => i.material = c).Perm
      (items.filter fun i => i.material ∈ codes) := by
  induction codes with
  | nil => simp
  | cons c codes ih =>
    rw [List.nodup_cons] at hc
    rw [List.flatMap_cons]
    have hsplit := List.filter_append_perm (fun i : Item => decide (i.material = c))
      (items.filter fun i => i.material ∈ c :: codes)
    rw [List.filter_filter, List.filter_filter] at hsplit
    refine (List.Perm.append ?_ ((ih hc.2).trans ?_)).trans hsplit
    · refine List.Perm.of_eq (List.filter_congr fun i _ => ?_)
      by_cases hi : i.material = c <;> simp [hi]
    · refine List.Perm.of_eq (List.filter_congr fun i _ => ?_)
      by_cases hi : i.material = c
      · simp [hi, hc.1]
      · simp [hi]

/-- Grouping keeps the items. -/
theorem grouped_perm (items : List Item) : ((grouped items).flatMap Prod.snd).Perm items := by
  unfold grouped
  rw [List.flatMap_map]
  refine (flatMap_filter_perm (nodup_eraseDups _) items).trans (List.Perm.of_eq ?_)
  rw [List.filter_eq_self]
  intro i hi
  simpa using ⟨i, hi, rfl⟩

theorem map_fst_grouped (items : List Item) :
    (grouped items).map Prod.fst = (items.map Item.material).eraseDups := by
  simp [grouped, Function.comp_def]

theorem nodup_grouped (items : List Item) : ((grouped items).map Prod.fst).Nodup :=
  map_fst_grouped items ▸ nodup_eraseDups _

/-- The items of a group have its code. -/
theorem material_of_mem_grouped {items : List Item} {g : String × List Item}
    (hg : g ∈ grouped items) : ∀ i ∈ g.2, i.material = g.1 := by
  obtain ⟨code, -, rfl⟩ := List.mem_map.1 hg
  intro i hi
  simpa using (List.mem_filter.1 hi).2

/-! ### Filling sheets -/

/-- A finished sheet on which the items of `taken` were placed, in order. -/
structure Filled (saw : Saw) (s : Settings) (taken : List Item) (l : Layout) : Prop where
  reached : ∃ b, Board.Reached l.material saw s taken b ∧ b.layout = l
  code : ∀ i ∈ taken, i.material = l.material.code
  occupied : l.placed ≠ []

/-- Finished sheets with the items that were placed on each. -/
abbrev AllFilled (saw : Saw) (s : Settings) : List (List Item) → List Layout → Prop :=
  List.Forall₂ (Filled saw s)

/-- Filling a sheet places some of the items on it and leaves the others, for which there is no
room. Both stay in order. -/
theorem fill_parted {b b' : Board} {before items rest : List Item}
    (h : (fill b items).Returns (b', rest)) (hb : Board.Reached m saw s before b) :
    ∃ taken, Board.Reached m saw s (before ++ taken) b' ∧ Parted items taken rest ∧
      (∀ i ∈ rest, b'.NoRoom i) ∧ ∀ i, b.NoRoom i → b'.NoRoom i := by
  induction items generalizing b before rest with
  | nil =>
    obtain ⟨rfl, rfl⟩ := Prod.mk.inj (Logged.returns_pure.1 h)
    exact ⟨[], by simpa using hb, .nil, by simp, fun _ => id⟩
  | cons i items ih =>
    simp only [fill] at h
    obtain ⟨r, hr, h⟩ := Logged.returns_bind.1 h
    cases r with
    | some r =>
      obtain ⟨next, p⟩ := r
      obtain ⟨taken, hreached, hparts, hrest, hkeeps⟩ :=
        ih (Logged.returns_note_bind.1 h) (hb.placed hr)
      exact ⟨i :: taken, by simpa using hreached, .left hparts, hrest,
        fun j hj => hkeeps j (hj.place hr)⟩
    | none =>
      obtain ⟨⟨next, left⟩, hfill, h⟩ := Logged.returns_bind.1 h
      obtain ⟨rfl, rfl⟩ := Prod.mk.inj (Logged.returns_pure.1 h)
      obtain ⟨taken, hreached, hparts, hrest, hkeeps⟩ := ih hfill hb
      -- The sheet had no room for the item in the middle of the pass, so it has none at the end.
      have hi := hkeeps i (Board.place_returns_none_iff_noRoom.1 hr)
      exact ⟨taken, hreached, .right hparts, List.forall_mem_cons.2 ⟨hi, hrest⟩, hkeeps⟩

theorem fill_spec {b b' : Board} {before items rest : List Item}
    (h : (fill b items).Returns (b', rest)) (hb : Board.Reached m saw s before b) :
    ∃ taken, Board.Reached m saw s (before ++ taken) b' ∧ (taken ++ rest).Perm items ∧
      (∀ i ∈ rest, b'.NoRoom i) ∧ ∀ i, b.NoRoom i → b'.NoRoom i := by
  obtain ⟨taken, hreached, hparts, hroom⟩ := fill_parted h hb
  exact ⟨taken, hreached, hparts.perm, hroom⟩

/-- Filling a sheet does not change its number. -/
theorem fill_index {b b' : Board} {items rest : List Item}
    (h : (fill b items).Returns (b', rest)) : b'.index = b.index := by
  induction items generalizing b rest with
  | nil =>
    obtain ⟨rfl, rfl⟩ := Prod.mk.inj (Logged.returns_pure.1 h)
    rfl
  | cons i items ih =>
    simp only [fill] at h
    obtain ⟨r, hr, h⟩ := Logged.returns_bind.1 h
    cases r with
    | some r =>
      obtain ⟨spot, used, hput⟩ := Board.place_returns_some_iff.1 hr
      rw [ih (Logged.returns_note_bind.1 h), hput.board]
    | none =>
      obtain ⟨⟨next, left⟩, hfill, h⟩ := Logged.returns_bind.1 h
      obtain ⟨rfl, rfl⟩ := Prod.mk.inj (Logged.returns_pure.1 h)
      exact ih hfill

/-- A new sheet takes at least one of some items that all fit it. -/
theorem fill_opened {b b' : Board} {index : UInt64} {items rest : List Item}
    (hopened : Board.opened m index saw s = .ok b) (h : (fill b items).Returns (b', rest))
    (hitems : items ≠ []) (hfits : ∀ i ∈ items, i.fitsIn b.usable = true) : b'.placed ≠ [] := by
  obtain ⟨taken, hreached, hperm, hrest, -⟩ := fill_spec h (.opened hopened)
  rw [List.nil_append] at hreached
  intro hnone
  obtain rfl := hreached.eq_nil hnone
  -- Nothing was placed, so the sheet is still new, and has room for the first item.
  obtain ⟨i, hi⟩ := List.exists_mem_of_ne_nil items hitems
  obtain ⟨index', hopened'⟩ := hreached.exists_opened
  have hnew := (Board.noRoom_opened_iff hopened').1 (hrest i (hperm.symm.subset hi))
  rw [hreached.usable_eq (Board.Reached.opened hopened).settled.2.1, hfits i hi] at hnew
  cases hnew

/-- A sheet is finished as it is. -/
theorem finish_spec {b : Board} {l : Layout} (h : b.finish.Returns l) : l = b.layout := by
  obtain ⟨ok, -, h⟩ := Logged.returns_bind.1 h
  split at h
  · exact (Logged.returns_pure.1 h).symm
  · exact (Logged.returns_fault h).elim

/-- The courses that filling sheets may take: no sheet is allowed, or no item waits, or a new sheet
takes none of the items waiting, or it is filled and others after it. -/
inductive Course (m : Material) (saw : Saw) (s : Settings) :
    (allowed index : Nat) → (waiting : List Item) → List Layout → (left : List Item) → Prop
  | stopped {index : Nat} {waiting : List Item} : Course m saw s 0 index waiting [] waiting
  | done {allowed index : Nat} : Course m saw s allowed index [] [] []
  | stuck {allowed index : Nat} {waiting rest : List Item} {b b' : Board} (hwaiting : waiting ≠ [])
    (hopened : Board.opened m (UInt64.ofNat index) saw s = .ok b)
    (hfill : (fill b waiting).Returns (b', rest)) (hnone : b'.placed = []) :
    Course m saw s (allowed + 1) index waiting [] rest
  | sheet {allowed index : Nat} {waiting rest left : List Item} {b b' : Board}
    {layouts : List Layout} (hwaiting : waiting ≠ [])
    (hopened : Board.opened m (UInt64.ofNat index) saw s = .ok b)
    (hfill : (fill b waiting).Returns (b', rest)) (hsome : b'.placed ≠ [])
    (hmore : Course m saw s allowed (index + 1) rest layouts left) :
    Course m saw s (allowed + 1) index waiting (b'.layout :: layouts) left

theorem course_of_returns {allowed index : Nat} {waiting left : List Item} {layouts : List Layout}
    (h : Packing.Returns (fillSheets m saw s allowed index waiting) (layouts, left)) :
    Course m saw s allowed index waiting layouts left := by
  induction allowed generalizing index waiting layouts left with
  | zero =>
    obtain ⟨rfl, rfl⟩ := Prod.mk.inj (Packing.returns_pure.1 h)
    exact .stopped
  | succ allowed ih =>
    simp only [fillSheets] at h
    split at h
    next hempty =>
      obtain ⟨rfl, rfl⟩ := Prod.mk.inj (Packing.returns_pure.1 h)
      rw [List.isEmpty_iff.1 hempty]
      exact .done
    next hwaiting =>
      rw [List.isEmpty_iff] at hwaiting
      obtain ⟨b, hopened, h⟩ := Packing.returns_bind.1 h
      obtain ⟨⟨b', rest⟩, hfill, h⟩ := Packing.returns_bind.1 h
      rw [Packing.returns_ofExcept] at hopened
      rw [Packing.returns_lift] at hfill
      split at h
      next hnone =>
        obtain ⟨rfl, rfl⟩ := Prod.mk.inj (Packing.returns_pure.1 h)
        exact .stuck hwaiting hopened hfill (List.isEmpty_iff.1 hnone)
      next hsome =>
        rw [List.isEmpty_iff] at hsome
        obtain ⟨l, hfinish, h⟩ := Packing.returns_bind.1 h
        obtain ⟨⟨more, left'⟩, hmore, h⟩ := Packing.returns_bind.1 h
        obtain ⟨rfl, rfl⟩ := Prod.mk.inj (Packing.returns_pure.1 h)
        obtain rfl := finish_spec (Packing.returns_lift.1 hfinish)
        exact .sheet hwaiting hopened hfill hsome (ih hmore)

/-- How items are dealt out: each went on one of the sheets or is left over, and a sheet has no room
for items of its material that went on later sheets or are left over. -/
structure Dealt (saw : Saw) (s : Settings) (items : List Item) (layouts : List Layout)
    (left : List Item) (takens : List (List Item)) : Prop where
  filled : AllFilled saw s takens layouts
  perm : (takens.flatten ++ left).Perm items
  inTurn : (takens.zip layouts).Pairwise fun a b =>
    a.2.material.code = b.2.material.code → ∀ i ∈ b.1, a.2.NoRoom i
  noRoom : ∀ l ∈ layouts, ∀ i ∈ left, i.material = l.material.code → l.NoRoom i

namespace Dealt

variable {items items' left left' : List Item} {layouts layouts' : List Layout}
  {takens takens' : List (List Item)}

theorem none (items : List Item) : Dealt saw s items [] items [] :=
  ⟨List.Forall₂.nil, List.Perm.refl _, List.Pairwise.nil, by simp⟩

/-- A sheet is filled before the others. -/
theorem cons {taken rest : List Item} {l : Layout} (hl : Filled saw s taken l)
    (hperm : (taken ++ rest).Perm items) (hrest : ∀ i ∈ rest, l.NoRoom i)
    (h : Dealt saw s rest layouts left takens) :
    Dealt saw s items (l :: layouts) left (taken :: takens) := by
  refine ⟨.cons hl h.filled, ?_, ?_, ?_⟩
  · rw [List.flatten_cons, List.append_assoc]
    exact (h.perm.append_left taken).trans hperm
  · rw [List.zip_cons_cons, List.pairwise_cons]
    refine ⟨fun b hb _ i hi => hrest i (h.perm.subset ?_), h.inTurn⟩
    exact List.mem_append_left _ (List.mem_flatten.2 ⟨b.1, (List.of_mem_zip hb).1, hi⟩)
  · refine List.forall_mem_cons.2 ⟨fun i hi _ => hrest i (h.perm.subset ?_), h.noRoom⟩
    exact List.mem_append_right _ hi

/-- Items that find no room on any sheet are left over, too. -/
theorem leave {never : List Item} (h : Dealt saw s items layouts left takens)
    (hnever : ∀ l ∈ layouts, ∀ i ∈ never, l.NoRoom i) :
    Dealt saw s (never ++ items) layouts (never ++ left) takens := by
  refine ⟨h.filled, ?_, h.inTurn, ?_⟩
  · exact (List.perm_append_comm_assoc ..).trans (h.perm.append_left never)
  · intro l hl i hi
    rcases List.mem_append.1 hi with hi | hi
    · exact fun _ => hnever l hl i hi
    · exact h.noRoom l hl i hi

/-- The items of one material are dealt out before those of others. -/
theorem append {code : String} (h : Dealt saw s items layouts left takens)
    (h' : Dealt saw s items' layouts' left' takens')
    (hlayouts : ∀ l ∈ layouts, l.material.code = code) (hleft : ∀ i ∈ left, i.material = code)
    (hlayouts' : ∀ l ∈ layouts', l.material.code ≠ code)
    (hleft' : ∀ i ∈ left', i.material ≠ code) :
    Dealt saw s (items ++ items') (layouts ++ layouts') (left ++ left') (takens ++ takens') := by
  refine ⟨List.rel_append h.filled h'.filled, ?_, ?_, ?_⟩
  · rw [List.flatten_append]
    refine List.Perm.trans ?_ (h.perm.append h'.perm)
    simp only [List.append_assoc]
    exact (List.perm_append_comm_assoc ..).append_left _
  · rw [List.zip_append h.filled.length_eq, List.pairwise_append]
    refine ⟨h.inTurn, h'.inTurn, fun a ha b hb hcode => ?_⟩
    rw [hlayouts _ (List.of_mem_zip ha).2] at hcode
    exact absurd hcode.symm (hlayouts' _ (List.of_mem_zip hb).2)
  · intro l hl i hi hcode
    rcases List.mem_append.1 hl with hl | hl <;> rcases List.mem_append.1 hi with hi | hi
    · exact h.noRoom l hl i hi hcode
    · exact absurd (hcode.trans (hlayouts l hl)) (hleft' i hi)
    · exact absurd (hcode.symm.trans (hleft i hi)) (hlayouts' l hl)
    · exact h'.noRoom l hl i hi hcode

end Dealt

/-- Filling sheets of a material deals out the items. If all of them fit an empty sheet, some are
left over only if as many sheets were filled as were allowed. -/
theorem Course.dealt {allowed index : Nat} {waiting left : List Item} {layouts : List Layout}
    (h : Course m saw s allowed index waiting layouts left)
    (hcode : ∀ i ∈ waiting, i.material = m.code) :
    ∃ takens, Dealt saw s waiting layouts left takens ∧ (∀ l ∈ layouts, l.material = m) ∧
      ∀ u, saw.usable m = .ok u → (∀ i ∈ waiting, i.fitsIn u = true) → left ≠ [] →
        layouts.length = allowed := by
  induction h with
  | stopped => exact ⟨[], .none _, by simp, fun _ _ _ _ => rfl⟩
  | done => exact ⟨[], .none _, by simp, fun _ _ _ hleft => absurd rfl hleft⟩
  | @stuck allowed index waiting rest b b' hwaiting hopened hfill hnone =>
    -- A sheet that took no item is dropped, and nothing is lost with it.
    obtain ⟨taken, hreached, hperm, -⟩ := fill_spec hfill (.opened hopened)
    rw [List.nil_append] at hreached
    rw [hreached.eq_nil hnone] at hperm
    refine ⟨[], ⟨.nil, hperm, .nil, by simp⟩, by simp, fun u hu hfits _ => ?_⟩
    obtain rfl := (Board.Reached.opened hopened).usable_eq hu
    exact absurd hnone (fill_opened hopened hfill hwaiting hfits)
  | @sheet allowed index waiting rest left b b' layouts _ hopened hfill hsome _ ih =>
    obtain ⟨taken, hreached, hperm, hnoRoom, -⟩ := fill_spec hfill (.opened hopened)
    rw [List.nil_append] at hreached
    have hmaterial : b'.layout.material = m := hreached.settled.1
    have hsplit : ∀ i ∈ taken ++ rest, i.material = m.code :=
      fun i hi => hcode i (hperm.subset hi)
    rw [List.forall_mem_append] at hsplit
    obtain ⟨takens, hdealt, hall, hused⟩ := ih hsplit.2
    have hfilled : Filled saw s taken b'.layout := by
      refine ⟨⟨b', ?_, rfl⟩, ?_, hsome⟩
      · rwa [hmaterial]
      · rw [hmaterial]
        exact hsplit.1
    refine ⟨taken :: takens, hdealt.cons hfilled hperm hnoRoom,
      List.forall_mem_cons.2 ⟨hmaterial, hall⟩, fun u hu hfits hleft => ?_⟩
    have hrest : ∀ i ∈ rest, i.fitsIn u = true :=
      fun i hi => hfits i (hperm.subset (List.mem_append_right _ hi))
    rw [List.length_cons, hused u hu hrest hleft]

/-! ### Packing the materials -/

/-- What does not fit a sheet at all finds no room on it when it is finished. -/
theorem AllFilled.noRoom {takens : List (List Item)} {layouts : List Layout} {u : Rect} {i : Item}
    (h : AllFilled saw s takens layouts) (hmaterial : ∀ l ∈ layouts, l.material = m)
    (hu : saw.usable m = .ok u) (hi : i.fitsIn u = false) : ∀ l ∈ layouts, l.NoRoom i := by
  induction h with
  | nil => simp
  | cons hl _ ih =>
    rw [List.forall_mem_cons] at hmaterial
    refine List.forall_mem_cons.2 ⟨?_, ih hmaterial.2⟩
    obtain ⟨b, hreached, rfl⟩ := hl.reached
    rw [← hmaterial.1] at hu
    obtain rfl := hreached.usable_eq hu
    exact hreached.noRoom hi

/-- Packing one material fills sheets with the items that fit an empty one. Left over are the
others, and behind them those that no sheet took. -/
theorem returns_packMaterial_iff {items left : List Item} {layouts : List Layout} :
    Packing.Returns (packMaterial m saw s items) (layouts, left) ↔
      ∃ u rest, saw.usable m = .ok u ∧
        Packing.Returns (fillSheets m saw s s.maxSheets.toNat 1 (items.filter fun i => i.fitsIn u))
          (layouts, rest) ∧
        left = items.filter (fun i => !i.fitsIn u) ++ rest := by
  unfold packMaterial
  rw [Packing.returns_bind]
  simp only [List.partition_eq_filter_filter, Packing.returns_ofExcept, Packing.returns_notes_bind]
  constructor
  · rintro ⟨u, hu, h⟩
    obtain ⟨⟨layouts', rest⟩, hfill, h⟩ := Packing.returns_bind.1 h
    have hpair : (layouts', items.filter (fun i => !i.fitsIn u) ++ rest) = (layouts, left) := by
      split at h
      · exact Packing.returns_pure.1 h
      · exact Packing.returns_pure.1 (Packing.returns_note_bind.1 h)
    obtain ⟨rfl, rfl⟩ := Prod.mk.inj hpair
    exact ⟨u, rest, hu, hfill, rfl⟩
  · rintro ⟨u, rest, hu, hfill, rfl⟩
    refine ⟨u, hu, Packing.returns_bind.2 ⟨(layouts, rest), hfill, ?_⟩⟩
    split
    · exact Packing.returns_pure.2 rfl
    · exact Packing.returns_note_bind.2 (Packing.returns_pure.2 rfl)

/-- Packing one material deals out its items. Left over are those that do not fit an empty sheet,
and others only if as many sheets were filled as may be opened. -/
theorem packMaterial_spec {items left : List Item} {layouts : List Layout}
    (h : Packing.Returns (packMaterial m saw s items) (layouts, left))
    (hcode : ∀ i ∈ items, i.material = m.code) :
    ∃ takens, Dealt saw s items layouts left takens ∧ (∀ l ∈ layouts, l.material = m) ∧
      ∃ u, saw.usable m = .ok u ∧
        ∀ i ∈ left, i.fitsIn u = false ∨ layouts.length = s.maxSheets.toNat := by
  obtain ⟨usable, rest, husable, hfill, rfl⟩ := returns_packMaterial_iff.1 h
  obtain ⟨takens, hdealt, hall, hused⟩ := (course_of_returns hfill).dealt
    fun i hi => hcode i (List.mem_of_mem_filter hi)
  have hnever : ∀ i ∈ items.filter (fun i => !i.fitsIn usable), i.fitsIn usable = false := by
    intro i hi
    simpa using (List.mem_filter.1 hi).2
  have hleave := hdealt.leave fun l hl i hi =>
    hdealt.filled.noRoom hall husable (hnever i hi) l hl
  refine ⟨takens, ⟨hleave.filled, ?_, hleave.inTurn, hleave.noRoom⟩, hall, usable, husable, ?_⟩
  · exact hleave.perm.trans (List.perm_append_comm.trans (List.filter_append_perm _ items))
  · intro i hi
    rcases List.mem_append.1 hi with hi | hi
    · exact .inl (hnever i hi)
    · refine .inr (hused usable husable (fun j hj => ?_) (List.ne_nil_of_mem hi))
      simpa using (List.mem_filter.1 hj).2

/-- Why an item may be left over: it does not fit an empty sheet of its material, or as many sheets
of this material were filled as may be opened. -/
def Excused (catalog : Catalog) (saw : Saw) (s : Settings) (layouts : List Layout)
    (i : Item) : Prop :=
  ∃ m u, catalog i.material = some m ∧ saw.usable m = .ok u ∧
    (i.fitsIn u = false ∨
      (layouts.filter fun l => l.material.code = i.material).length = s.maxSheets.toNat)

theorem filter_code_eq_self {layouts : List Layout} {code : String}
    (h : ∀ l ∈ layouts, l.material.code = code) :
    layouts.filter (fun l => l.material.code = code) = layouts :=
  List.filter_eq_self.2 fun l hl => by simpa using h l hl

theorem filter_code_eq_nil {layouts : List Layout} {code : String}
    (h : ∀ l ∈ layouts, l.material.code ≠ code) :
    layouts.filter (fun l => l.material.code = code) = [] :=
  List.filter_eq_nil_iff.2 fun l hl => by simpa using h l hl

namespace Excused

variable {layouts others : List Layout} {i : Item}

/-- Sheets of other materials do not matter to an excuse. -/
theorem append_right (h : Excused catalog saw s layouts i)
    (hothers : ∀ l ∈ others, l.material.code ≠ i.material) :
    Excused catalog saw s (layouts ++ others) i := by
  rwa [Excused, List.filter_append, filter_code_eq_nil hothers, List.append_nil]

theorem append_left (h : Excused catalog saw s layouts i)
    (hothers : ∀ l ∈ others, l.material.code ≠ i.material) :
    Excused catalog saw s (others ++ layouts) i := by
  rwa [Excused, List.filter_append, filter_code_eq_nil hothers, List.nil_append]

end Excused

/-- Packing group by group deals out the items on sheets of known materials, and leaves over none
without an excuse. -/
theorem packGroups_spec {known : List Material} {groups : List (String × List Item)} {plan : Plan}
    (h : Packing.Returns (packGroups known saw s groups) plan)
    (hcode : ∀ g ∈ groups, ∀ i ∈ g.2, i.material = g.1) (hnodup : (groups.map Prod.fst).Nodup) :
    ∃ takens, Dealt saw s (groups.flatMap Prod.snd) plan.layouts plan.unplaced takens ∧
      (∀ l ∈ plan.layouts, l.material ∈ known ∧ l.material.code ∈ groups.map Prod.fst) ∧
      ∀ i ∈ plan.unplaced, Excused (.ofList known) saw s plan.layouts i := by
  induction groups generalizing plan with
  | nil =>
    obtain rfl := Packing.returns_pure.1 h
    exact ⟨[], .none _, by simp, by simp⟩
  | cons g groups ih =>
    obtain ⟨code, items⟩ := g
    rw [List.forall_mem_cons] at hcode
    rw [List.map_cons, List.nodup_cons] at hnodup
    simp only [packGroups] at h
    split at h
    next => exact (Packing.not_returns_fault h).elim
    next m hm =>
      have hfound : m.code = code := Material.code_of_find? hm
      obtain ⟨⟨layouts, left⟩, hmaterial, h⟩ := Packing.returns_bind.1 h
      obtain ⟨rest, hrest, h⟩ := Packing.returns_bind.1 h
      obtain rfl := Packing.returns_pure.1 h
      obtain ⟨takens, hdealt, hall, u, hu, hleft⟩ := packMaterial_spec hmaterial
        fun i hi => (hcode.1 i hi).trans hfound.symm
      obtain ⟨takens', hdealt', hall', hleft'⟩ := ih hrest hcode.2 hnodup.2
      have hlayouts : ∀ l ∈ layouts, l.material.code = code :=
        fun l hl => hall l hl ▸ hfound
      have hothers : ∀ l ∈ rest.layouts, l.material.code ≠ code :=
        fun l hl heq => hnodup.1 (heq ▸ (hall' l hl).2)
      have hitems : ∀ i ∈ left, i.material = code :=
        fun i hi => hcode.1 i (hdealt.perm.subset (List.mem_append_right _ hi))
      have hitems' : ∀ i ∈ rest.unplaced, i.material ≠ code := by
        intro i hi heq
        obtain ⟨g, hg, hig⟩ := List.mem_flatMap.1
          (hdealt'.perm.subset (List.mem_append_right _ hi))
        exact hnodup.1 (List.mem_map.2 ⟨g, hg, (hcode.2 g hg i hig).symm.trans heq⟩)
      refine ⟨takens ++ takens', hdealt.append hdealt' hlayouts hitems hothers hitems', ?_, ?_⟩
      · rw [List.forall_mem_append]
        refine ⟨fun l hl => ⟨hall l hl ▸ List.mem_of_find?_eq_some hm, ?_⟩, fun l hl => ?_⟩
        · exact hlayouts l hl ▸ List.mem_cons_self
        · exact ⟨(hall' l hl).1, List.mem_cons_of_mem _ (hall' l hl).2⟩
      · rw [List.forall_mem_append]
        refine ⟨fun i hi => ?_, fun i hi => ?_⟩
        · have hexcused : Excused (.ofList known) saw s layouts i := by
            refine ⟨m, u, hitems i hi ▸ hm, hu, ?_⟩
            rw [hitems i hi, filter_code_eq_self hlayouts]
            exact hleft i hi
          exact hexcused.append_right (hitems i hi ▸ hothers)
        · refine (hleft' i hi).append_left fun l hl heq => ?_
          exact hitems' i hi (heq.symm.trans (hlayouts l hl))

end Packer

open Packer

/-- What a packing that returns has done. -/
structure Plan.Packed (catalog : Catalog) (saw : Saw) (s : Settings) (pieces : List Piece)
    (plan : Plan) (takens : List (List Item)) : Prop where
  flawless : ∀ p ∈ pieces, p.flaw? = none
  filled : AllFilled saw s takens plan.layouts
  listed : ∀ l ∈ plan.layouts, ∃ code, catalog code = some l.material
  perm : (takens.flatten ++ plan.unplaced).Perm (pieces.flatMap Piece.copies)

/-- A packing that returns has dealt out the copies of the pieces, and left over none without an
excuse. -/
theorem pack_spec {pieces : List Piece} {plan : Plan}
    (h : Packing.Returns (pack s catalog saw pieces) plan) :
    ∃ takens, plan.Packed catalog saw s pieces takens ∧
      Dealt saw s (pieces.flatMap Piece.copies) plan.layouts plan.unplaced takens ∧
      ∀ i ∈ plan.unplaced, Excused (catalog.demanded pieces) saw s plan.layouts i := by
  unfold pack at h
  obtain ⟨known, hknown, h⟩ := Packing.returns_bind.1 h
  rw [Packing.returns_ofExcept] at hknown
  have hchecks := checkAll_spec hknown
  obtain ⟨-, -, h⟩ := Packing.returns_bind.1 h
  obtain ⟨plan', hplan, h⟩ := Packing.returns_bind.1 h
  obtain rfl : plan' = plan := by
    split at h
    · exact Packing.returns_pure.1 h
    · exact (Packing.returns_fault_bind h).elim
  obtain ⟨takens, hdealt, hlisted, hexcused⟩ := packGroups_spec hplan
    (fun g hg => material_of_mem_grouped hg) (nodup_grouped _)
  rw [checkAll_ofList hknown] at hexcused
  have hperm := hdealt.perm.trans ((grouped_perm _).trans (ranked_perm pieces))
  exact ⟨takens, ⟨hchecks.pieces, hdealt.filled, fun l hl => hchecks.known _ (hlisted l hl).1,
    hperm⟩, ⟨hdealt.filled, hperm, hdealt.inTurn, hdealt.noRoom⟩, hexcused⟩

/-- Saying how it went changes nothing about a plan. -/
theorem returns_pack_of_solve {pieces : List Piece} {elapsed : Duration} {plan : Plan}
    (h : Packing.Returns (solve s catalog saw pieces elapsed) plan) :
    Packing.Returns (pack s catalog saw pieces) plan := by
  unfold solve at h
  obtain ⟨plan', hplan, h⟩ := Packing.returns_bind.1 h
  obtain ⟨-, -, h⟩ := Packing.returns_bind.1 h
  obtain rfl := Packing.returns_pure.1 h
  exact hplan

theorem solve_spec {pieces : List Piece} {elapsed : Duration} {plan : Plan}
    (h : Packing.Returns (solve s catalog saw pieces elapsed) plan) :
    ∃ takens, plan.Packed catalog saw s pieces takens := by
  obtain ⟨takens, hpacked, -⟩ := pack_spec (returns_pack_of_solve h)
  exact ⟨takens, hpacked⟩

namespace Plan.Packed

variable {pieces : List Piece} {plan : Plan} {takens : List (List Item)}

/-- The copies of a piece without flaws have an extent along both axes. -/
theorem solid_of_mem_copies {p : Piece} (hp : p.flaw? = none) {i : Item}
    (hi : i ∈ p.copies) : i.Solid := by
  obtain ⟨k, -, rfl⟩ := List.mem_map.1 hi
  have hsides : ¬ (p.width = 0 ∨ p.height = 0) := by
    intro h
    simp [Piece.flaw?, h] at hp
  rw [← UInt32.toNat_inj, ← UInt32.toNat_inj, UInt32.toNat_zero] at hsides
  change 0 < p.width.toNat ∧ 0 < p.height.toNat
  omega

/-- All items demanded have an extent along both axes. -/
theorem solid_copies (h : plan.Packed catalog saw s pieces takens) :
    ∀ i ∈ pieces.flatMap Piece.copies, i.Solid := by
  intro i hi
  obtain ⟨p, hp, hip⟩ := List.mem_flatMap.1 hi
  exact solid_of_mem_copies (h.flawless p hp) hip

/-- The items on the sheets have an extent along both axes. -/
theorem solid (h : plan.Packed catalog saw s pieces takens) :
    ∀ taken ∈ takens, ∀ i ∈ taken, i.Solid := by
  intro taken htaken i hi
  refine h.solid_copies i (h.perm.subset (List.mem_append_left _ ?_))
  exact List.mem_flatten.2 ⟨taken, htaken, hi⟩

end Plan.Packed

/-! ### A small demand -/

def sampleMaterial : Material := ⟨"oak", 10, 8, 1, 5, none⟩

def sampleCatalog : Catalog := Catalog.ofList [sampleMaterial]

def sampleSaw : Saw := ⟨1, 1, 1, 1, 1⟩

/-- A piece that fits nowhere, one that fits only turned, and one wanted twice. -/
def samplePieces : List Piece :=
  [⟨"lid", "oak", 9, 9, 1, true, 1, none, none⟩,
    ⟨"side", "oak", 2, 7, 1, true, 0, none, some "left"⟩,
    ⟨"foot", "oak", 2, 2, 2, false, 0, none, none⟩]

def samplePlan : Plan where
  layouts := [⟨sampleMaterial, 1, ⟨1, 1, 8, 6⟩,
    [⟨"side", some "left", 1, 1, 7, 2, true⟩, ⟨"foot_1", none, 1, 4, 2, 2, false⟩,
      ⟨"foot_2", none, 4, 4, 2, 2, false⟩], [⟨7, 4, 2, 3⟩]⟩]
  unplaced := [⟨"lid", "oak", 9, 9, true, 1, none, none⟩]

/-- The small demand is packed on one sheet, but for the lid. -/
theorem solve_sample :
    Packing.Returns (solve .standard sampleCatalog sampleSaw samplePieces ⟨0, 0⟩) samplePlan := by
  have hrank : ranked samplePieces = samplePieces.flatMap Piece.copies :=
    List.mergeSort_of_pairwise (by decide)
  unfold solve pack
  rw [hrank]
  rfl

end Guillotine
