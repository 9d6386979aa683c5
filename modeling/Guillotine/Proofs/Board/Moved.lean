import Guillotine.Proofs.Board.Audit
import Guillotine.Proofs.Leads
import Guillotine.Proofs.Plane.Moved

/-! Sheets with trims and without. The trims of a sheet move its usable region away from the corner
of the sheet and change nothing else: the same item goes to the same handle, all that is placed and
all that is free keeps its place in the usable region, and where the sheet with trims passes its
audit, so does the one without. -/
namespace Guillotine

open List (Forall₂)

variable {dx dy : Length} {f g : FreeList} {i : Item} {m : Material} {saw : Saw} {s : Settings}
  {index : UInt64}

namespace FreeList

/-- Whether two free lists have the same handles, and each rectangle of `f` is that of `g` moved. -/
structure MovedFrom (dx dy : Length) (f g : FreeList) : Prop where
  entries : Forall₂ (fun e d => e.1 = d.1 ∧ e.2.MovedFrom dx dy d.2) f.entries g.entries
  next : f.next = g.next

namespace MovedFrom

variable {h : Handle} {r : Rect} {rs qs : List Rect}

theorem rects (hfg : f.MovedFrom dx dy g) : Forall₂ (Rect.MovedFrom dx dy) f.rects g.rects := by
  rw [FreeList.rects, FreeList.rects, List.forall₂_map_left_iff, List.forall₂_map_right_iff]
  exact hfg.entries.imp fun _ _ hed => hed.2

theorem get? (hfg : f.MovedFrom dx dy g) (hr : f.get? h = some r) :
    ∃ q, g.get? h = some q ∧ r.MovedFrom dx dy q := by
  obtain ⟨es, n⟩ := f
  obtain ⟨ds, k⟩ := g
  obtain ⟨hentries, -⟩ := hfg
  dsimp only [FreeList.get?] at hentries hr ⊢
  induction hentries with
  | nil => cases hr
  | @cons e d es ds hed _ ih =>
    obtain ⟨j, r'⟩ := e
    obtain ⟨_, q'⟩ := d
    obtain ⟨rfl, hrq⟩ := hed
    rw [List.lookup_cons] at hr ⊢
    cases hj : h == j with
    | true =>
      simp only [hj] at hr ⊢
      obtain rfl := Option.some.inj hr
      exact ⟨q', rfl, hrq⟩
    | false =>
      simp only [hj] at hr ⊢
      exact ih hr

theorem remove (hfg : f.MovedFrom dx dy g) (h : Handle) :
    (f.remove h).MovedFrom dx dy (g.remove h) :=
  ⟨forall₂_filter (fun e d hed => by rw [hed.1]) hfg.entries, hfg.next⟩

theorem insert {q : Rect} (hfg : f.MovedFrom dx dy g) (hrq : r.MovedFrom dx dy q) :
    (f.insert r).MovedFrom dx dy (g.insert q) := by
  refine ⟨List.rel_append hfg.entries (.cons ⟨hfg.next, hrq⟩ .nil), ?_⟩
  show f.next + 1 = g.next + 1
  rw [hfg.next]

theorem insertAll (hfg : f.MovedFrom dx dy g) (h : Forall₂ (Rect.MovedFrom dx dy) rs qs) :
    (f.insertAll rs).MovedFrom dx dy (g.insertAll qs) := by
  induction h generalizing f g with
  | nil => exact hfg
  | cons hrq _ ih => exact ih (hfg.insert hrq)

/-- The best fit depends on handles and extents only. -/
theorem bestFit (hfg : f.MovedFrom dx dy g) (w t : Length) : f.bestFit w t = g.bestFit w t := by
  obtain ⟨es, n⟩ := f
  obtain ⟨ds, k⟩ := g
  obtain ⟨hentries, -⟩ := hfg
  rw [FreeList.bestFit, FreeList.bestFit]
  generalize (none : Option (Handle × Area)) = best
  dsimp only at hentries ⊢
  induction hentries generalizing best with
  | nil => rfl
  | @cons e d es ds hed _ ih =>
    rw [List.foldl_cons, List.foldl_cons, hed.1, hed.2.fits, hed.2.area]
    exact ih _

theorem findSpot (hfg : f.MovedFrom dx dy g) (i : Item) : f.findSpot i = g.findSpot i := by
  simp only [FreeList.findSpot, FreeList.spotFor, hfg.bestFit]

end MovedFrom

end FreeList

/-! ### Sheets without trims -/

/-- The saw without any trims. -/
def Saw.untrimmed (saw : Saw) : Saw := ⟨saw.kerf, 0, 0, 0, 0⟩

/-- A material with sheets that are as large as what its trims leave of them. -/
def Material.trimmed (saw : Saw) (m : Material) : Material :=
  { m with
    width := .ofNat (m.width.toNat - saw.sideTrims)
    height := .ofNat (m.height.toNat - saw.endTrims) }

theorem Saw.toNat_ofNat_sub (a : Length) (n : Nat) :
    (UInt32.ofNat (a.toNat - n)).toNat = a.toNat - n :=
  UInt32.toNat_ofNat_of_lt' (Nat.lt_of_le_of_lt (Nat.sub_le _ _) a.toNat_lt)

/-- What is usable of a sheet is all of a sheet of that size, moved by the trims at the left and at
the top. -/
theorem Saw.usable_trimmed {u : Rect} (hu : saw.usable m = .ok u) :
    ∃ u', saw.untrimmed.usable (m.trimmed saw) = .ok u' ∧
      u.MovedFrom saw.leftTrim saw.topTrim u' := by
  have hspec := usable_spec hu
  have hw := hspec.width
  have hh := hspec.height
  have hpos := hspec.pos
  have hwidth : (m.trimmed saw).width.toNat = u.width.toNat :=
    (toNat_ofNat_sub _ _).trans (by simp only [sideTrims]; omega)
  have hheight : (m.trimmed saw).height.toNat = u.height.toNat :=
    (toNat_ofNat_sub _ _).trans (by simp only [endTrims]; omega)
  have hreturns : ∃ u', saw.untrimmed.usable (m.trimmed saw) = .ok u' := by
    have hsides : ¬ (m.trimmed saw).width.toNat ≤ saw.untrimmed.sideTrims := by
      rw [hwidth]
      exact Nat.not_le.2 hpos.1
    have hends : ¬ (m.trimmed saw).height.toNat ≤ saw.untrimmed.endTrims := by
      rw [hheight]
      exact Nat.not_le.2 hpos.2
    rw [usable, if_neg hsides, if_neg hends]
    exact ⟨_, rfl⟩
  obtain ⟨u', hu'⟩ := hreturns
  have hspec' := usable_spec hu'
  have hw' := hspec'.width
  have hh' := hspec'.height
  simp only [untrimmed, UInt32.toNat_zero, hwidth, hheight] at hw' hh'
  refine ⟨u', hu', ?_, ?_, ?_, ?_⟩
  · rw [hspec.x, hspec'.x]
    exact (Nat.add_zero _).symm
  · rw [hspec.y, hspec'.y]
    exact (Nat.add_zero _).symm
  · rw [← UInt32.toNat_inj]
    omega
  · rw [← UInt32.toNat_inj]
    omega

/-! ### Placements and layouts -/

/-- Whether a placement is another one, moved. -/
structure Placement.MovedFrom (dx dy : Length) (p q : Placement) : Prop where
  item : p.item = q.item
  label : p.label = q.label
  rotated : p.rotated = q.rotated
  rect : p.rect.MovedFrom dx dy q.rect

/-- Whether a layout with trims is one without them, moved into the trims: the material differs by
the trims, and all that is on the sheet and all that is left of it is moved alike. -/
structure Layout.MovedFrom (saw : Saw) (l k : Layout) : Prop where
  material : k.material = l.material.trimmed saw
  index : l.index = k.index
  usable : l.usable.MovedFrom saw.leftTrim saw.topTrim k.usable
  placed : Forall₂ (Placement.MovedFrom saw.leftTrim saw.topTrim) l.placed k.placed
  remainders : Forall₂ (Rect.MovedFrom saw.leftTrim saw.topTrim) l.remainders k.remainders

/-- Placements that can be compared can be compared after moving back. -/
theorem Layout.MovedFrom.auditable {l k : Layout} (h : l.MovedFrom saw k) {kerf : Length}
    (hl : l.Auditable kerf) : k.Auditable kerf := by
  refine pairwise_of_forall₂ (fun p q p' q' hpq hpq' hcomparable => ?_) h.placed hl
  exact ⟨(hpq.rect.grown kerf kerf).shows hpq'.rect hcomparable.1,
    (hpq'.rect.grown kerf kerf).shows hpq.rect hcomparable.2⟩

/-! ### Boards -/

/-- Whether `b` is filled as `c` is, which has no trims. -/
structure Board.MovedFrom (saw : Saw) (b c : Board) : Prop where
  ready : b.Ready
  ready' : c.Ready
  cutting : b.cutting = c.cutting
  free : b.free.MovedFrom saw.leftTrim saw.topTrim c.free
  layout : b.layout.MovedFrom saw c.layout

namespace Board

variable {b c : Board}

theorem moved_opened (hb : opened m index saw s = .ok b) :
    ∃ c, opened (m.trimmed saw) index saw.untrimmed s = .ok c ∧ b.MovedFrom saw c := by
  obtain ⟨u, hu, rfl⟩ := opened_eq_ok_iff.1 hb
  obtain ⟨u', hu', hmoved⟩ := Saw.usable_trimmed hu
  have hc : opened (m.trimmed saw) index saw.untrimmed s = .ok _ :=
    opened_eq_ok_iff.2 ⟨u', hu', rfl⟩
  exact ⟨_, hc, ready_opened hb, ready_opened hc, rfl, ⟨.cons ⟨rfl, hmoved⟩ .nil, rfl⟩,
    rfl, rfl, hmoved, .nil, .cons hmoved .nil⟩

namespace MovedFrom

/-- An item is put in the same place of the usable region, with trims and without. -/
theorem put (h : b.MovedFrom saw c) (hsolid : i.Solid) {spot : Spot} {used : Rect} {b' : Board}
    {p : Placement} (hput : Put b i spot used b' p) :
    ∃ spot' used' c' q, Put c i spot' used' c' q ∧ b'.MovedFrom saw c' := by
  have hfound : c.free.findSpot i = some spot := (h.free.findSpot i).symm.trans hput.found
  obtain ⟨used', c', q, hput'⟩ := h.ready'.bounded.exists_put hfound
  obtain ⟨r, hget, hused⟩ := h.free.get? hput.committed.found
  obtain rfl : r = used' := Option.some.inj (hget.symm.trans hput'.committed.found)
  have hedges := (hput.fitting h.ready.toFeasible).edges
  have hcorner : (Put.corner b spot used).MovedFrom saw.leftTrim saw.topTrim
      (Put.corner c spot r) := ⟨hused, rfl, rfl, congrArg FreeList.Cutting.kerf h.cutting⟩
  have hfree : b'.free.MovedFrom saw.leftTrim saw.topTrim c'.free := by
    rw [hput.free_eq hsolid h.ready.toFeasible, hput'.free_eq hsolid h.ready'.toFeasible, h.cutting]
    exact (h.free.remove _).insertAll (hcorner.splitKept hedges _ _)
  have hpq : p.MovedFrom saw.leftTrim saw.topTrim q := by
    rw [hput.placement, hput'.placement]
    exact ⟨rfl, rfl, rfl, hused.x, hused.y, rfl, rfl⟩
  obtain ⟨hmaterial, hindex, husable, hplaced, hcutting⟩ := hput.fields
  obtain ⟨hmaterial', hindex', husable', hplaced', hcutting'⟩ := hput'.fields
  refine ⟨spot, r, c', q, hput', hput.ready hsolid h.ready, hput'.ready hsolid h.ready', ?_,
    hfree, ?_⟩
  · rw [hcutting, hcutting', h.cutting]
  · simp only [Board.layout, hmaterial, hmaterial', hindex, hindex', husable, husable', hplaced,
      hplaced']
    exact ⟨h.layout.material, h.layout.index, h.layout.usable,
      List.rel_append h.layout.placed (.cons hpq .nil), hfree.rects⟩

/-- A sheet is finished without trims where it is finished with them. -/
theorem finish (h : b.MovedFrom saw c) :
    Logged.Leads (Layout.MovedFrom saw) b.finish c.finish := by
  intro l hl
  obtain ⟨hall, rfl⟩ := h.ready.returns_finish_iff.1 hl
  rw [h.cutting] at hall
  exact ⟨c.layout, h.ready'.returns_finish_iff.2 ⟨h.layout.auditable hall, rfl⟩, h.layout⟩

end MovedFrom

end Board

end Guillotine
