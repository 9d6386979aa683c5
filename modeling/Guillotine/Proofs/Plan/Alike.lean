import Guillotine.Plan.Packer
import Guillotine.Proofs.Board.Alike

/-! Demands that are packed alike. Items that differ in their tags only are ranked, grouped and
placed in the same way, so that the plans for them differ in tags only. -/
namespace Guillotine

open List (Forall₂)

/-- Two plans are the same but for tags and thickness. -/
structure Plan.Alike (T : Tag → Tag → Prop) (p q : Plan) : Prop where
  layouts : Forall₂ (Layout.Alike T) p.layouts q.layouts
  unplaced : Forall₂ (Item.Alike T) p.unplaced q.unplaced

/-- Two ids are the same, and so are the labels, an absent one being the same as an empty one. -/
def SameTag (s t : Tag) : Prop := s.1 = t.1 ∧ s.2.getD "" = t.2.getD ""

/-- Two pieces are the same, an absent label being the same as an empty one. -/
structure Piece.Alike (p q : Piece) : Prop where
  id : p.id = q.id
  material : p.material = q.material
  width : p.width = q.width
  height : p.height = q.height
  quantity : p.quantity = q.quantity
  canRotate : p.canRotate = q.canRotate
  priority : p.priority = q.priority
  grain : p.grain = q.grain
  label : p.label.getD "" = q.label.getD ""

variable {T : Tag → Tag → Prop} {m n : Material} {b c : Board} {is js : List Item}

namespace Packer

/-! ### Ranking and grouping -/

theorem ranksAtLeast_alike {i i' j j' : Item} (h : i.Alike T j) (h' : i'.Alike T j') :
    ranksAtLeast i i' = ranksAtLeast j j' := by
  simp only [ranksAtLeast, h.priority, h'.priority, h.area, h'.area]

theorem grouped_alike (h : Forall₂ (Item.Alike T) is js) :
    Forall₂ (fun g k => g.1 = k.1 ∧ Forall₂ (Item.Alike T) g.2 k.2) (grouped is) (grouped js) := by
  rw [grouped, grouped, map_eq_of_forall₂ (fun _ _ hij => hij.material) h,
    List.forall₂_map_left_iff, List.forall₂_map_right_iff, List.forall₂_same]
  intro code _
  exact ⟨rfl, forall₂_filter (fun i j hij => by rw [hij.material]) h⟩

/-! ### Filling sheets -/

theorem fill_alike (hb : b.Alike T c) (h : Forall₂ (Item.Alike T) is js) :
    (fill b is).Alike (fun p q => p.1.Alike T q.1 ∧ Forall₂ (Item.Alike T) p.2 q.2)
      (fill c js) := by
  induction h generalizing b c with
  | nil => exact .pure ⟨hb, .nil⟩
  | cons hij _ ih =>
    apply (Board.place_alike hb hij).bind
    intro o r hor
    cases hor with
    | none =>
      apply (ih hb).bind
      exact fun _ _ hrest => .pure ⟨hrest.1, .cons hij hrest.2⟩
    | some hpq => exact Logged.Alike.note.bind fun _ _ _ => ih hpq.1

theorem fillSheets_alike (hm : m.Alike n) (saw : Saw) (s : Settings) (allowed index : Nat)
    (h : Forall₂ (Item.Alike T) is js) :
    Packing.Alike (fun p q => Forall₂ (Layout.Alike T) p.1 q.1 ∧ Forall₂ (Item.Alike T) p.2 q.2)
      (fillSheets m saw s allowed index is) (fillSheets n saw s allowed index js) := by
  induction allowed generalizing index is js with
  | zero => exact .pure ⟨.nil, h⟩
  | succ allowed ih =>
    rw [fillSheets, fillSheets, isEmpty_eq_of_forall₂ h]
    split
    · exact .pure ⟨.nil, .nil⟩
    · apply (Packing.Alike.ofExcept (Board.opened_alike hm (UInt64.ofNat index) saw s)).bind
      intro b c hb
      apply (Packing.Alike.lift (fill_alike hb h)).bind
      rintro ⟨b, is⟩ ⟨c, js⟩ ⟨hb, h⟩
      dsimp only at hb h ⊢
      rw [isEmpty_eq_of_forall₂ hb.placed]
      split
      · exact .pure ⟨.nil, h⟩
      · apply (Packing.Alike.lift (Board.finish_alike hb)).bind
        intro l k hl
        apply (ih (index + 1) h).bind
        rintro ⟨ls, is⟩ ⟨ks, js⟩ ⟨hls, h⟩
        exact .pure ⟨.cons hl hls, h⟩

theorem packMaterial_alike (hm : m.Alike n) (saw : Saw) (s : Settings)
    (h : Forall₂ (Item.Alike T) is js) :
    Packing.Alike (fun p q => Forall₂ (Layout.Alike T) p.1 q.1 ∧ Forall₂ (Item.Alike T) p.2 q.2)
      (packMaterial m saw s is) (packMaterial n saw s js) := by
  rw [packMaterial, packMaterial, hm.usable]
  apply (Packing.Alike.ofExcept (Agree.of_eq rfl)).bind
  rintro usable _ rfl
  have hwaiting : Forall₂ (Item.Alike T) (is.filter fun i => i.fitsIn usable)
      (js.filter fun i => i.fitsIn usable) :=
    forall₂_filter (fun i j hij => hij.fitsIn usable) h
  have hnever : Forall₂ (Item.Alike T) (is.filter fun i => !i.fitsIn usable)
      (js.filter fun i => !i.fitsIn usable) :=
    forall₂_filter (fun i j hij => by rw [hij.fitsIn usable]) h
  simp only [List.partition_eq_filter_filter]
  apply (Packing.Alike.notes hnever).bind
  intro _ _ _
  apply (fillSheets_alike hm saw s _ _ hwaiting).bind
  rintro ⟨ls, is⟩ ⟨ks, js⟩ ⟨hls, h⟩
  dsimp only at hls h ⊢
  rw [isEmpty_eq_of_forall₂ h]
  split
  · exact .pure ⟨hls, List.rel_append hnever h⟩
  · exact Packing.Alike.note.bind fun _ _ _ => .pure ⟨hls, List.rel_append hnever h⟩

theorem find?_alike {ms ns : List Material} (h : Forall₂ Material.Alike ms ns) (code : String) :
    Option.Rel Material.Alike (ms.find? fun m => m.code = code)
      (ns.find? fun m => m.code = code) := by
  induction h with
  | nil => exact .none
  | cons hmn _ ih =>
    rw [List.find?_cons, List.find?_cons, hmn.code]
    split
    · exact .some hmn
    · exact ih

theorem packGroups_alike {known known' : List Material}
    (hknown : Forall₂ Material.Alike known known') (saw : Saw) (s : Settings)
    {gs ks : List (String × List Item)}
    (h : Forall₂ (fun g k => g.1 = k.1 ∧ Forall₂ (Item.Alike T) g.2 k.2) gs ks) :
    Packing.Alike (Plan.Alike T) (packGroups known saw s gs) (packGroups known' saw s ks) := by
  induction h with
  | nil => exact .pure ⟨.nil, .nil⟩
  | @cons g k gs ks hgk _ ih =>
    obtain ⟨code, is⟩ := g
    obtain ⟨_, js⟩ := k
    obtain ⟨rfl, hitems⟩ := hgk
    have hmaterial := find?_alike hknown code
    rw [packGroups, packGroups]
    generalize known.find? (fun m => m.code = code) = o at hmaterial ⊢
    generalize known'.find? (fun m => m.code = code) = r at hmaterial ⊢
    cases hmaterial with
    | none => exact .fault _
    | some hmn =>
      apply (packMaterial_alike hmn saw s hitems).bind
      rintro ⟨ls, is⟩ ⟨ks, js⟩ ⟨hls, hleft⟩
      apply ih.bind
      intro p q hpq
      exact .pure ⟨List.rel_append hls hpq.layouts, List.rel_append hleft hpq.unplaced⟩

/-! ### Whole demands -/

theorem copies_alike {p q : Piece} (h : p.Alike q) :
    Forall₂ (Item.Alike SameTag) p.copies q.copies := by
  rw [Piece.copies, Piece.copies, h.quantity, List.forall₂_map_left_iff,
    List.forall₂_map_right_iff, List.forall₂_same]
  intro k _
  have hid : (p.copy (k + 1)).id = (q.copy (k + 1)).id := by
    simp only [Piece.copy, h.quantity, h.id]
  exact ⟨⟨hid, h.label⟩, h.material, h.width, h.height, h.canRotate, h.priority, h.grain⟩

theorem ranked_alike {ps qs : List Piece} (h : Forall₂ Piece.Alike ps qs) :
    Forall₂ (Item.Alike SameTag) (ranked ps) (ranked qs) :=
  forall₂_mergeSort (fun _ _ _ _ h h' => ranksAtLeast_alike h h')
    (List.rel_flatMap h fun _ _ hpq => copies_alike hpq)

theorem validate_piece_alike {p q : Piece} (h : p.Alike q) : p.validate = q.validate := by
  simp only [Piece.validate, Piece.flaw?, h.id, h.width, h.height, h.quantity]

theorem validate_material_alike (h : m.Alike n) : m.validate = n.validate := by
  simp only [Material.validate, Material.flaw?, h.code, h.width, h.height, h.cost]

theorem any_code_alike {ms ns : List Material} (h : Forall₂ Material.Alike ms ns) (code : String) :
    (ms.any fun m => m.code = code) = ns.any fun m => m.code = code := by
  induction h with
  | nil => rfl
  | cons hmn _ ih => rw [List.any_cons, List.any_cons, hmn.code, ih]

theorem check_alike {catalog catalog' : Catalog}
    (hcatalog : ∀ code, Option.Rel Material.Alike (catalog code) (catalog' code)) (saw : Saw)
    {ps qs : List Piece} (h : Forall₂ Piece.Alike ps qs) {known known' : List Material}
    (hknown : Forall₂ Material.Alike known known') :
    Agree (Forall₂ Material.Alike) (check catalog saw known ps) (check catalog' saw known' qs) := by
  induction h generalizing known known' with
  | nil => exact .ok hknown
  | @cons p q ps qs hpq _ ih =>
    have hmaterial := hcatalog p.material
    rw [check, check, validate_piece_alike hpq, ← hpq.material, hpq.id]
    apply (Agree.of_eq rfl).bind
    intro _ _ _
    generalize catalog p.material = o at hmaterial ⊢
    generalize catalog' p.material = r at hmaterial ⊢
    cases hmaterial with
    | none => exact .error _
    | @some m n hmn =>
      dsimp only
      rw [hmn.code, any_code_alike hknown, validate_material_alike hmn, hmn.usable]
      split
      · exact ih hknown
      · apply (Agree.of_eq rfl).bind
        intro _ _ _
        apply (Agree.of_eq rfl).bind
        intro _ _ _
        exact ih (List.rel_append hknown (.cons hmn .nil))

theorem checkAll_alike {catalog catalog' : Catalog}
    (hcatalog : ∀ code, Option.Rel Material.Alike (catalog code) (catalog' code)) (saw : Saw)
    {ps qs : List Piece} (h : Forall₂ Piece.Alike ps qs) :
    Agree (Forall₂ Material.Alike) (checkAll catalog saw ps) (checkAll catalog' saw qs) := by
  rw [checkAll, checkAll, isEmpty_eq_of_forall₂ h]
  split
  · exact .error _
  · exact check_alike hcatalog saw h .nil

end Packer

namespace Plan

variable {p q : Plan}

theorem placedCount_alike (h : p.Alike T q) : p.placedCount = q.placedCount :=
  (List.rel_flatMap h.layouts fun _ _ hl => hl.placed).length_eq

theorem accountsFor_alike (h : p.Alike T q) (n : Nat) : p.accountsFor n = q.accountsFor n := by
  rw [accountsFor, accountsFor, placedCount_alike h, h.unplaced.length_eq]

theorem usedArea_alike (h : p.Alike T q) : Agree Eq p.usedArea q.usedArea := by
  apply (Agree.mapM h.layouts fun _ _ hl => .of_eq hl.usedArea).bind
  intro as bs hareas
  rw [List.forall₂_eq_eq_eq] at hareas
  exact .of_eq (congrArg Area.sum hareas)

theorem materialArea_alike (h : p.Alike T q) : p.materialArea = q.materialArea := by
  rw [materialArea, materialArea, map_eq_of_forall₂ (fun _ _ hl => hl.material.area) h.layouts]

theorem efficiency_alike (h : p.Alike T q) : Agree Eq p.efficiency q.efficiency := by
  rw [efficiency, efficiency, materialArea_alike h]
  apply (Agree.of_eq rfl).bind
  rintro total _ rfl
  split
  · exact .ok rfl
  · apply (usedArea_alike h).bind
    rintro used _ rfl
    exact .ok rfl

theorem announce_alike (h : p.Alike T q) (elapsed elapsed' : Duration) :
    (p.announce elapsed).Alike (fun _ _ => True) (q.announce elapsed') := by
  apply Logged.Alike.noteChecked
  apply (efficiency_alike h).bind
  exact fun _ _ _ => .ok trivial

end Plan

open Packer in
/-- Demands that are the same but for absent labels and thickness are packed alike, and the tags in
their plans are related if those of the items demanded are. -/
theorem pack_alike (s : Settings) {catalog catalog' : Catalog}
    (hcatalog : ∀ code, Option.Rel Material.Alike (catalog code) (catalog' code)) (saw : Saw)
    {ps qs : List Piece} (h : Forall₂ Piece.Alike ps qs)
    (hitems : Forall₂ (Item.Alike T) (ranked ps) (ranked qs)) :
    Packing.Alike (Plan.Alike T) (pack s catalog saw ps) (pack s catalog' saw qs) := by
  rw [pack, pack]
  apply (Packing.Alike.ofExcept (checkAll_alike hcatalog saw h)).bind
  intro known known' hknown
  dsimp only
  apply (Packing.Alike.lift (Logged.Alike.noteChecked _)).bind
  · intro _ _ _
    apply (packGroups_alike hknown saw s (grouped_alike hitems)).bind
    intro p q hpq
    rw [Plan.accountsFor_alike hpq, hitems.length_eq]
    split
    · exact .pure hpq
    · exact (Packing.Alike.fault (R := Eq) _).bind fun _ _ _ => .pure hpq
  · rw [map_eq_of_forall₂ (fun _ _ hij => hij.area) hitems]
    apply (Agree.of_eq rfl).bind
    exact fun _ _ _ => .ok trivial

end Guillotine
