import Guillotine.Proofs.Leads
import Guillotine.Proofs.Plan.Accounts

/-! One packing follows another. Suppose that new sheets of two materials are related, that related
sheets take the same items and stay related, and that they are finished as related layouts. Then,
where the packing of a demand returns, so does its packing with the other materials, saw and
settings: its sheets are related to those of the first packing one by one, and the same items are
left over. How sheets and layouts are related is a parameter, and so is a property that all items
have. -/
namespace Guillotine

open List (Forall₂)

/-- Whether two plans are related sheet by sheet, with the same items left over. -/
structure Plan.Related (L : Layout → Layout → Prop) (plan plan' : Plan) : Prop where
  layouts : Forall₂ L plan.layouts plan'.layouts
  unplaced : plan.unplaced = plan'.unplaced

namespace Packer

/-- What it takes for items with property `Q` to be packed on sheets of `m'` as on those of `m`. The
sheets are related by `R` while they are filled, and by `L` when they are finished. -/
structure Follows (Q : Item → Prop) (R : Board → Board → Prop) (L : Layout → Layout → Prop)
    (s s' : Settings) (saw saw' : Saw) (m m' : Material) : Prop where
  usable {u : Rect} (hu : saw.usable m = .ok u) :
    ∃ u', saw'.usable m' = .ok u' ∧ ∀ i : Item, i.fitsIn u' = i.fitsIn u
  opened {index : UInt64} {b : Board} {i : Item} (hb : Board.opened m index saw s = .ok b)
    (hi : Q i) (hfits : i.fitsIn b.usable = true) :
    ∃ c, Board.opened m' index saw' s' = .ok c ∧ R b c
  noSpot {b c : Board} {i : Item} (hbc : R b c) (hi : Q i) (hb : b.free.findSpot i = none) :
    c.free.findSpot i = none
  put {b b' c : Board} {i : Item} {spot : Spot} {used : Rect} {p : Placement} (hbc : R b c)
    (hi : Q i) (hput : Board.Put b i spot used b' p) :
    ∃ spot' used' c' q, Board.Put c i spot' used' c' q ∧ R b' c'
  used {b c : Board} (hbc : R b c) : c.placed.isEmpty = b.placed.isEmpty
  finish {b c : Board} (hbc : R b c) : Logged.Leads L b.finish c.finish

variable {Q : Item → Prop} {R : Board → Board → Prop} {L : Layout → Layout → Prop}
  {s s' : Settings} {saw saw' : Saw} {m m' : Material} {b c : Board} {items waiting : List Item}

/-- How the results of filling sheets are related: sheet by sheet, with the same items left over. -/
def SheetsRelated (L : Layout → Layout → Prop) (x y : List Layout × List Item) : Prop :=
  Forall₂ L x.1 y.1 ∧ x.2 = y.2

namespace Follows

/-- An item is placed on both of two related sheets, or on none of them. -/
theorem place (h : Follows Q R L s s' saw saw' m m') {i : Item} (hbc : R b c) (hi : Q i) :
    Logged.Leads (Option.Rel fun x y => R x.1 y.1) (b.place i) (c.place i) := by
  intro answer hanswer
  cases answer with
  | none =>
    refine ⟨none, Board.place_returns_none_iff.2 ?_, .none⟩
    exact h.noSpot hbc hi (Board.place_returns_none_iff.1 hanswer)
  | some answer =>
    obtain ⟨spot, used, hput⟩ := Board.place_returns_some_iff.1 hanswer
    obtain ⟨spot', used', c', q, hput', hbc'⟩ := h.put hbc hi hput
    exact ⟨some (c', q), Board.place_returns_some_iff.2 ⟨spot', used', hput'⟩, .some hbc'⟩

/-- Related sheets take the same ones of some items. -/
theorem fill (h : Follows Q R L s s' saw saw' m m') (hbc : R b c) (hitems : ∀ i ∈ items, Q i) :
    Logged.Leads (fun x y => R x.1 y.1 ∧ x.2 = y.2) (fill b items) (fill c items) := by
  induction items generalizing b c with
  | nil => exact .pure ⟨hbc, rfl⟩
  | cons i items ih =>
    rw [List.forall_mem_cons] at hitems
    apply (h.place hbc hitems.1).bind
    intro answer answer' _ hrel
    cases hrel with
    | none =>
      apply (ih hbc hitems.2).bind
      rintro ⟨b', rest⟩ ⟨c', _⟩ - ⟨hbc', rfl⟩
      exact .pure ⟨hbc', rfl⟩
    | some hxy => exact Logged.Leads.note.bind fun _ _ _ _ => ih hxy hitems.2

/-- Sheets of both materials are filled alike with items that fit an empty sheet. -/
theorem fillSheets (h : Follows Q R L s s' saw saw' m m') {u : Rect} (hu : saw.usable m = .ok u)
    (allowed index : Nat) (hwaiting : ∀ i ∈ waiting, Q i ∧ i.fitsIn u = true) :
    Packing.Leads (SheetsRelated L) (fillSheets m saw s allowed index waiting)
      (fillSheets m' saw' s' allowed index waiting) := by
  induction allowed generalizing index waiting with
  | zero => exact .pure ⟨.nil, rfl⟩
  | succ allowed ih =>
    cases waiting with
    | nil => exact .pure ⟨.nil, rfl⟩
    | cons i waiting =>
      have hfirst := hwaiting i List.mem_cons_self
      have hopened : ∀ b, Board.opened m (UInt64.ofNat index) saw s = .ok b →
          ∃ c, Board.opened m' (UInt64.ofNat index) saw' s' = .ok c ∧ R b c :=
        fun b hb => h.opened hb hfirst.1 ((Board.Reached.opened hb).usable_eq hu ▸ hfirst.2)
      apply (Packing.Leads.ofExcept hopened).bind
      intro b c hb hbc
      apply (Packing.Leads.lift (h.fill hbc fun j hj => (hwaiting j hj).1)).bind
      rintro ⟨b', rest⟩ ⟨c', _⟩ hfill ⟨hbc', rfl⟩
      obtain ⟨taken, -, hperm, -⟩ :=
        fill_spec (Packing.returns_lift.1 hfill) (.opened (Packing.returns_ofExcept.1 hb))
      dsimp only at hbc' ⊢
      rw [h.used hbc']
      split
      · exact .pure ⟨.nil, rfl⟩
      · apply (Packing.Leads.lift (h.finish hbc')).bind
        intro l k _ hlk
        have hrest : ∀ j ∈ rest, Q j ∧ j.fitsIn u = true :=
          fun j hj => hwaiting j (hperm.subset (List.mem_append_right _ hj))
        apply (ih (index + 1) hrest).bind
        rintro ⟨ls, left⟩ ⟨ks, _⟩ - ⟨hls, rfl⟩
        exact .pure ⟨.cons hlk hls, rfl⟩

/-- The items of one material are packed alike. -/
theorem packMaterial (h : Follows Q R L s s' saw saw' m m') (hs : s'.maxSheets = s.maxSheets)
    (hitems : ∀ i ∈ items, Q i) :
    Packing.Leads (SheetsRelated L) (packMaterial m saw s items)
      (packMaterial m' saw' s' items) := by
  apply (Packing.Leads.ofExcept fun u hu => h.usable hu).bind
  intro u u' hu hsame
  simp only [List.partition_eq_filter_filter, hsame, hs]
  apply (Packing.Leads.notes _ _).bind
  intro _ _ _ _
  have hwaiting : ∀ i ∈ items.filter (fun i => i.fitsIn u), Q i ∧ i.fitsIn u = true := by
    intro i hi
    obtain ⟨hi, hfits⟩ := List.mem_filter.1 hi
    exact ⟨hitems i hi, hfits⟩
  apply (h.fillSheets (Packing.returns_ofExcept.1 hu) _ _ hwaiting).bind
  rintro ⟨ls, left⟩ ⟨ks, _⟩ - ⟨hls, rfl⟩
  dsimp only at hls ⊢
  split
  · exact .pure ⟨hls, rfl⟩
  · exact (Packing.Leads.lift Logged.Leads.note).bind fun _ _ _ _ => .pure ⟨hls, rfl⟩

end Follows

/-- Groups of items are packed alike if this holds of each material that is known. -/
theorem packGroups_follows {known known' : List Material} (hs : s'.maxSheets = s.maxSheets)
    (hknown : ∀ code m, known.find? (fun m => m.code = code) = some m →
      ∃ m', known'.find? (fun m => m.code = code) = some m' ∧ Follows Q R L s s' saw saw' m m')
    {groups : List (String × List Item)} (hgroups : ∀ g ∈ groups, ∀ i ∈ g.2, Q i) :
    Packing.Leads (Plan.Related L) (packGroups known saw s groups)
      (packGroups known' saw' s' groups) := by
  induction groups with
  | nil => exact .pure ⟨.nil, rfl⟩
  | cons g groups ih =>
    obtain ⟨code, items⟩ := g
    rw [List.forall_mem_cons] at hgroups
    rw [packGroups, packGroups]
    cases hm : known.find? fun m => m.code = code with
    | none => exact .fault
    | some m =>
      obtain ⟨m', hm', hfollows⟩ := hknown code m hm
      rw [hm']
      apply (hfollows.packMaterial hs hgroups.1).bind
      rintro ⟨ls, left⟩ ⟨ks, _⟩ - ⟨hls, rfl⟩
      apply (ih hgroups.2).bind
      rintro rest rest' - hrest
      refine .pure ⟨List.rel_append hls hrest.layouts, ?_⟩
      dsimp only
      rw [hrest.unplaced]

end Packer

open Packer

/-- Where the packing of a demand returns, so does one that follows it, with related sheets and the
same items left over. -/
theorem solve_follows {Q : Item → Prop} {R : Board → Board → Prop} {L : Layout → Layout → Prop}
    {s s' : Settings} {saw saw' : Saw} {catalog catalog' : Catalog} {pieces : List Piece}
    (hs : s'.maxSheets = s.maxSheets)
    (hchecked : ∀ known, checkAll catalog saw pieces = .ok known →
      ∃ known', checkAll catalog' saw' pieces = .ok known' ∧
        ∀ code m, known.find? (fun m => m.code = code) = some m →
          ∃ m', known'.find? (fun m => m.code = code) = some m' ∧
            Follows Q R L s s' saw saw' m m')
    (hitems : ∀ i ∈ pieces.flatMap Piece.copies, Q i) (elapsed elapsed' : Duration) :
    Packing.Leads (Plan.Related L) (solve s catalog saw pieces elapsed)
      (solve s' catalog' saw' pieces elapsed') := by
  intro plan h
  rw [returns_solve_iff, returns_pack_iff] at h
  obtain ⟨known, hknown, hplan⟩ := h
  obtain ⟨known', hknown', hfollows⟩ := hchecked known hknown
  have hgroups : ∀ g ∈ grouped (ranked pieces), ∀ i ∈ g.2, Q i := by
    intro g hg i hi
    refine hitems i ((ranked_perm pieces).subset ((grouped_perm _).subset ?_))
    exact List.mem_flatMap.2 ⟨g, hg, hi⟩
  obtain ⟨plan', hplan', hrelated⟩ := packGroups_follows hs hfollows hgroups plan hplan
  refine ⟨plan', ?_, hrelated⟩
  rw [returns_solve_iff, returns_pack_iff]
  exact ⟨known', hknown', hplan'⟩

end Guillotine
