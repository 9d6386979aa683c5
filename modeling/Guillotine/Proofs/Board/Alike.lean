import Guillotine.Board.Filling
import Guillotine.Proofs.Alike

/-! Sheets that are filled alike. Ids and labels are carried along, and what a material is thick
does not matter at all: on items and materials that differ in these only, the same places are
chosen, the same faults arise, and the sheets differ in ids and labels only. How the ids and labels
of the items are related is a parameter, and those of the placements are related in the same way. -/
namespace Guillotine

open List (Forall₂)

/-- An id and a label. -/
abbrev Tag := String × Option String

/-- Two materials differ in their thickness at most. -/
structure Material.Alike (m n : Material) : Prop where
  code : m.code = n.code
  width : m.width = n.width
  height : m.height = n.height
  cost : m.cost = n.cost
  grain : m.grain = n.grain

/-- Two items have related tags and are the same otherwise. -/
structure Item.Alike (T : Tag → Tag → Prop) (i j : Item) : Prop where
  tag : T (i.id, i.label) (j.id, j.label)
  material : i.material = j.material
  width : i.width = j.width
  height : i.height = j.height
  canRotate : i.canRotate = j.canRotate
  priority : i.priority = j.priority
  grain : i.grain = j.grain

/-- Two placements have related tags and lie in the same place. -/
structure Placement.Alike (T : Tag → Tag → Prop) (p q : Placement) : Prop where
  tag : T (p.item, p.label) (q.item, q.label)
  rect : p.rect = q.rect
  rotated : p.rotated = q.rotated

/-- Two layouts are the same but for tags and thickness. -/
structure Layout.Alike (T : Tag → Tag → Prop) (l k : Layout) : Prop where
  material : l.material.Alike k.material
  index : l.index = k.index
  usable : l.usable = k.usable
  placed : Forall₂ (Placement.Alike T) l.placed k.placed
  remainders : l.remainders = k.remainders

/-- Two sheets are filled with the same but for tags and thickness. -/
structure Board.Alike (T : Tag → Tag → Prop) (b c : Board) : Prop where
  material : b.material.Alike c.material
  index : b.index = c.index
  usable : b.usable = c.usable
  free : b.free = c.free
  placed : Forall₂ (Placement.Alike T) b.placed c.placed
  cutting : b.cutting = c.cutting

variable {T : Tag → Tag → Prop} {i j : Item} {m n : Material} {b c : Board} {l k : Layout}
  {ps qs : List Placement}

/-! ### Materials and items -/

theorem Material.Alike.usable (h : m.Alike n) (saw : Saw) : saw.usable m = saw.usable n := by
  simp only [Saw.usable, h.code, h.width, h.height]

theorem Material.Alike.area (h : m.Alike n) : m.area = n.area := by
  simp only [Material.area, h.width, h.height]

theorem Item.Alike.area (h : i.Alike T j) : i.area = j.area := by
  simp only [Item.area, h.width, h.height]

theorem Item.Alike.orientations (h : i.Alike T j) : i.orientations = j.orientations := by
  simp only [Item.orientations, h.width, h.height, h.canRotate, h.grain]

theorem Item.Alike.fitsIn (h : i.Alike T j) (r : Rect) : i.fitsIn r = j.fitsIn r := by
  simp only [Item.fitsIn, h.orientations]

/-! ### The audit -/

theorem Placement.Alike.area {p q : Placement} (h : p.Alike T q) : p.area = q.area := by
  simp only [Placement.area, h.rect]

theorem placedArea_alike (h : Forall₂ (Placement.Alike T) ps qs) :
    placedArea ps = placedArea qs := by
  rw [placedArea, placedArea, map_eq_of_forall₂ (fun _ _ hpq => hpq.area) h]

theorem Layout.Alike.usedArea (h : l.Alike T k) : l.usedArea = k.usedArea :=
  placedArea_alike h.placed

namespace Audit

theorem firstTooClose_alike {p q : Placement} {kerf : Length} (hpq : p.Alike T q)
    (h : Forall₂ (Placement.Alike T) ps qs) :
    Agree (Option.Rel (Placement.Alike T)) (firstTooClose kerf p ps) (firstTooClose kerf q qs) := by
  induction h with
  | nil => exact .ok .none
  | @cons o r ps qs hor _ ih =>
    have hclose : tooClose kerf p o = tooClose kerf q r := by
      simp only [tooClose, hpq.rect, hor.rect]
    simp only [firstTooClose, hclose]
    apply (Agree.of_eq rfl).bind
    rintro close _ rfl
    cases close with
    | false => exact ih
    | true => exact .ok (.some hor)

theorem firstClosePair_alike {kerf : Length} (h : Forall₂ (Placement.Alike T) ps qs) :
    Agree (Option.Rel fun _ _ => True) (firstClosePair kerf ps) (firstClosePair kerf qs) := by
  induction h with
  | nil => exact .ok .none
  | cons hpq hrest ih =>
    apply (firstTooClose_alike hpq hrest).bind
    intro o r hor
    cases hor with
    | none => exact ih
    | some _ => exact .ok (.some trivial)

theorem firstOutside_alike {usable : Rect} (h : Forall₂ (Placement.Alike T) ps qs) :
    Agree (Option.Rel fun _ _ => True) (firstOutside usable ps) (firstOutside usable qs) := by
  induction h with
  | nil => exact .ok .none
  | cons hpq _ ih =>
    simp only [firstOutside, hpq.rect]
    apply (Agree.of_eq rfl).bind
    rintro inside _ rfl
    cases inside with
    | false => exact .ok (.some trivial)
    | true => exact ih

theorem keepsApart_alike {kerf : Length} (h : Forall₂ (Placement.Alike T) ps qs) :
    (keepsApart ps kerf).Alike Eq (keepsApart qs kerf) := by
  apply (Logged.Alike.lift (firstClosePair_alike h)).bind
  intro o r hor
  cases hor with
  | none => exact .pure rfl
  | some _ => exact Logged.Alike.note.bind fun _ _ _ => .pure rfl

theorem staysInside_alike {usable : Rect} (h : Forall₂ (Placement.Alike T) ps qs) :
    (staysInside ps usable).Alike Eq (staysInside qs usable) := by
  apply (Logged.Alike.lift (firstOutside_alike h)).bind
  intro o r hor
  cases hor with
  | none => exact .pure rfl
  | some _ => exact Logged.Alike.note.bind fun _ _ _ => .pure rfl

theorem passes_alike (h : l.Alike T k) (kerf : Length) :
    (passes l kerf).Alike Eq (passes k kerf) := by
  have harea : conservesArea l = conservesArea k := by
    simp only [conservesArea, h.usedArea, h.remainders, h.usable]
  simp only [passes, h.usable, h.remainders, harea]
  apply (staysInside_alike h.placed).bind
  rintro inside _ rfl
  cases inside with
  | false => exact .pure rfl
  | true =>
    apply (keepsApart_alike h.placed).bind
    rintro apart _ rfl
    cases apart with
    | false => exact .pure rfl
    | true => exact .refl (fun _ => rfl) _

end Audit

/-! ### Sheets -/

namespace Board

theorem opened_alike (h : m.Alike n) (index : UInt64) (saw : Saw) (s : Settings) :
    Agree (Board.Alike T) (opened m index saw s) (opened n index saw s) := by
  rw [opened, opened, h.usable]
  apply (Agree.of_eq rfl).bind
  rintro usable _ rfl
  exact .ok ⟨h, rfl, rfl, rfl, .nil, rfl⟩

theorem putAt_alike (hb : b.Alike T c) (hi : i.Alike T j) (s : Spot) :
    Agree (fun p q => p.1.Alike T q.1 ∧ p.2.Alike T q.2) (b.putAt i s) (c.putAt j s) := by
  rw [putAt, putAt, hb.free, hb.cutting]
  generalize c.free.commit s.handle s.orientation.width s.orientation.height c.cutting = commit
  apply (Agree.of_eq rfl).map
  rintro r _ rfl
  have hp : Placement.Alike T
      ⟨i.id, i.label, r.x, r.y, s.orientation.width, s.orientation.height, s.orientation.rotated⟩
      ⟨j.id, j.label, r.x, r.y, s.orientation.width, s.orientation.height, s.orientation.rotated⟩ :=
    ⟨hi.tag, rfl, rfl⟩
  exact ⟨⟨hb.material, hb.index, hb.usable, rfl, List.rel_append hb.placed (.cons hp .nil),
    rfl⟩, hp⟩

/-- On sheets and with items that are alike, the same place is chosen. -/
theorem place_alike (hb : b.Alike T c) (hi : i.Alike T j) :
    (b.place i).Alike (Option.Rel fun p q => p.1.Alike T q.1 ∧ p.2.Alike T q.2) (c.place j) := by
  have hspot : b.free.findSpot i = c.free.findSpot j := by
    simp only [FreeList.findSpot, hb.free, hi.orientations]
  rw [place, place, hspot]
  cases c.free.findSpot j with
  | none => exact .pure .none
  | some s =>
    apply Logged.Alike.note.bind
    intro _ _ _
    apply (Logged.Alike.lift (putAt_alike hb hi s)).bind
    exact fun _ _ h => .pure (.some h)

theorem layout_alike (h : b.Alike T c) : b.layout.Alike T c.layout :=
  ⟨h.material, h.index, h.usable, h.placed, congrArg FreeList.rects h.free⟩

theorem finish_alike (h : b.Alike T c) : b.finish.Alike (Layout.Alike T) c.finish := by
  rw [finish, finish, h.cutting]
  apply (Audit.passes_alike (layout_alike h) c.cutting.kerf).bind
  rintro passes _ rfl
  cases passes with
  | false => exact .fault _
  | true => exact .pure (layout_alike h)

end Board

end Guillotine
