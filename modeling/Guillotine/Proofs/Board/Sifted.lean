import Guillotine.Proofs.Board.Audit
import Guillotine.Proofs.Board.BestFit
import Guillotine.Proofs.Leads

/-! Sheets on which slivers are dropped. Free rectangles with a side that is shorter than those of
all items take none of them, so that it makes no difference whether they stay on the list. With and
without them the same rectangle is found, though under another handle, and is split in the same way,
and what is free on the one sheet is what is free on the other without its slivers. -/
namespace Guillotine

/-- Whether both sides of a rectangle are at least `least` long. -/
def Rect.atLeast (least : Length) (r : Rect) : Bool := least ≤ r.width && least ≤ r.height

/-- Whether both sides of an item are at least `least` long. -/
structure Item.AtLeast (least : Length) (i : Item) : Prop where
  width : least ≤ i.width
  height : least ≤ i.height

variable {least : Length} {i : Item} {r : Rect} {o : Orientation}

theorem Rect.atLeast_iff : r.atLeast least = true ↔ least ≤ r.width ∧ least ≤ r.height := by
  simp [Rect.atLeast]

/-- However an item lies, its sides are as long as it says. -/
theorem Item.AtLeast.orientation (hi : i.AtLeast least) (ho : o ∈ i.orientations) :
    least ≤ o.width ∧ least ≤ o.height := by
  rcases Item.mem_orientations_iff.1 ho with rfl | ⟨rfl, -⟩
  · exact ⟨hi.width, hi.height⟩
  · exact ⟨hi.height, hi.width⟩

/-- What has room for something has sides as long. -/
theorem Rect.atLeast_of_fits {w t : Length} (hw : least ≤ w) (ht : least ≤ t)
    (hfits : r.fits w t = true) : r.atLeast least = true := by
  obtain ⟨hwidth, hheight⟩ := Rect.fits_iff.1 hfits
  exact Rect.atLeast_iff.2 ⟨UInt32.le_trans hw hwidth, UInt32.le_trans ht hheight⟩

theorem Item.AtLeast.of_fitsIn (hi : i.AtLeast least) (hfits : i.fitsIn r = true) :
    r.atLeast least = true := by
  obtain ⟨o, ho, hfits⟩ := List.any_eq_true.1 hfits
  obtain ⟨hw, ht⟩ := hi.orientation ho
  exact Rect.atLeast_of_fits hw ht hfits

/-- The parts that are kept are those that are kept with a weaker condition, without slivers. -/
theorem SplitRule.splitKept_sifted (rule : SplitRule) (c : Corner) {least' : Length}
    (hle : least' ≤ least) :
    rule.splitKept c least = (rule.splitKept c least').filter (Rect.atLeast least) := by
  rw [splitKept, splitKept, List.filter_filter]
  refine List.filter_congr fun r _ => ?_
  rw [Bool.eq_iff_iff]
  simp only [Rect.atLeast, Bool.and_eq_true, decide_eq_true_eq]
  constructor
  · intro h
    exact ⟨h, UInt32.le_trans hle h.1, UInt32.le_trans hle h.2⟩
  · exact And.left

namespace FreeList

variable {f g : FreeList} {w t : Length}

/-- Whether `g` has the rectangles of `f` without the slivers, in the same order. -/
def Sifted (least : Length) (f g : FreeList) : Prop :=
  g.rects = f.rects.filter (Rect.atLeast least)

/-- Whether two spots are the same one, in a list with slivers and in one without: they lead to the
same rectangle, and without it the lists differ in slivers only. -/
structure SameSpot (least : Length) (f g : FreeList) (s s' : Spot) : Prop where
  orientation : s.orientation = s'.orientation
  left : s.left = s'.left
  rect : ∃ r, f.get? s.handle = some r ∧ g.get? s'.handle = some r
  rest : (f.remove s.handle).Sifted least (g.remove s'.handle)

/-- A best fit is one among fewer free rectangles. -/
theorem FitsBest.sifted {before after before' after' : List (Handle × Rect)}
    (h : FitsBest w t before r after)
    (hbefore : before'.map Prod.snd = (before.map Prod.snd).filter (Rect.atLeast least))
    (hafter : after'.map Prod.snd = (after.map Prod.snd).filter (Rect.atLeast least)) :
    FitsBest w t before' r after' := by
  have hmem : ∀ {es es' : List (Handle × Rect)},
      es'.map Prod.snd = (es.map Prod.snd).filter (Rect.atLeast least) →
      ∀ e' ∈ es', ∃ e ∈ es, e.2 = e'.2 := by
    intro es es' heq e' he'
    have hsnd : e'.2 ∈ (es.map Prod.snd).filter (Rect.atLeast least) :=
      heq ▸ List.mem_map_of_mem he'
    exact List.mem_map.1 (List.mem_of_mem_filter hsnd)
  refine ⟨h.fits, fun e' he' hfits => ?_, fun e' he' hfits => ?_⟩
  · obtain ⟨e, he, heq⟩ := hmem hbefore e' he'
    exact heq ▸ h.before e he (heq ▸ hfits)
  · obtain ⟨e, he, heq⟩ := hmem hafter e' he'
    exact heq ▸ h.after e he (heq ▸ hfits)

/-- Slivers are no place for an orientation with longer sides. -/
theorem Sifted.spotFor (h : f.Sifted least g) (hf : f.Named) (hg : g.Named)
    (hw : least ≤ o.width) (ht : least ≤ o.height) :
    Option.Rel (SameSpot least f g) (f.spotFor o) (g.spotFor o) := by
  unfold FreeList.spotFor
  cases hfound : f.bestFit o.width o.height with
  | none =>
    have hnone : g.bestFit o.width o.height = none := by
      rw [bestFit_eq_none_iff] at hfound ⊢
      intro r hr
      rw [h] at hr
      exact hfound r (List.mem_of_mem_filter hr)
    rw [hnone]
    exact .none
  | some found =>
    obtain ⟨k, left⟩ := found
    obtain ⟨before, r, after, hentries, hbest, rfl⟩ := exists_fitsBest hfound
    have hrects : g.entries.map Prod.snd =
        (before.map Prod.snd).filter (Rect.atLeast least) ++
          r :: (after.map Prod.snd).filter (Rect.atLeast least) := by
      show g.rects = _
      rw [h, rects, hentries, List.map_append, List.map_cons, List.filter_append,
        List.filter_cons_of_pos (Rect.atLeast_of_fits hw ht hbest.fits)]
    obtain ⟨before', rest, hentries', hbefore, hrest⟩ := List.map_eq_append_iff.1 hrects
    obtain ⟨⟨k', r'⟩, after', rfl, rfl, hafter⟩ := List.map_eq_cons_iff.1 hrest
    rw [bestFit_eq_some hentries' (hbest.sifted hbefore hafter)]
    obtain ⟨hget, hremove⟩ := hf.remove_entries hentries
    obtain ⟨hget', hremove'⟩ := hg.remove_entries hentries'
    refine .some ⟨rfl, rfl, ⟨_, hget, hget'⟩, ?_⟩
    rw [Sifted, rects, rects, hremove, hremove', List.map_append, List.map_append,
      List.filter_append, hbefore, hafter]

/-- With and without slivers, the same spot is found for an item with longer sides. -/
theorem Sifted.exists_spot (h : f.Sifted least g) (hf : f.Named) (hg : g.Named)
    (hi : i.AtLeast least) {spot : Spot} (hs : f.findSpot i = some spot) :
    ∃ spot', g.findSpot i = some spot' ∧ SameSpot least f g spot spot' := by
  have hrel := findSpot_rel (f := f) (g := g) (fun _ _ hsame => SameSpot.left hsame) fun _ ho =>
    h.spotFor hf hg (hi.orientation ho).1 (hi.orientation ho).2
  rw [hs] at hrel
  generalize g.findSpot i = found at hrel
  cases hrel with
  | some hsame => exact ⟨_, rfl, hsame⟩

/-- An item that finds no spot finds none among fewer free rectangles. -/
theorem Sifted.noSpot (h : f.Sifted least g) (hs : f.findSpot i = none) : g.findSpot i = none := by
  rw [findSpot_eq_none_iff] at hs ⊢
  intro r hr
  rw [h] at hr
  exact hs r (List.mem_of_mem_filter hr)

end FreeList

/-! ### Sheets -/

/-- A layout without the remainders that are slivers. -/
def Layout.sifted (least : Length) (l : Layout) : Layout :=
  { l with remainders := l.remainders.filter (Rect.atLeast least) }

/-- Whether `c` is filled as `b` is, but slivers are dropped on it. -/
structure Board.Sifted (least : Length) (b c : Board) : Prop where
  ready : b.Ready
  ready' : c.Ready
  material : c.material = b.material
  index : c.index = b.index
  usable : c.usable = b.usable
  placed : c.placed = b.placed
  cutting : c.cutting = { b.cutting with leastSide := least }
  weaker : b.cutting.leastSide ≤ least
  free : b.free.Sifted least c.free

namespace Board

variable {b c : Board} {m : Material} {index : UInt64} {saw : Saw} {s : Settings}

/-- A new sheet is no sliver if an item fits it. -/
theorem sifted_opened (hb : opened m index saw s = .ok b) (hle : s.leastSide ≤ least)
    (hi : i.AtLeast least) (hfits : i.fitsIn b.usable = true) :
    ∃ c, opened m index saw { s with leastSide := least } = .ok c ∧ b.Sifted least c := by
  obtain ⟨u, hu, rfl⟩ := opened_eq_ok_iff.1 hb
  have hc : opened m index saw { s with leastSide := least } = .ok _ :=
    opened_eq_ok_iff.2 ⟨u, hu, rfl⟩
  refine ⟨_, hc, ready_opened hb, ready_opened hc, rfl, rfl, rfl, rfl, rfl, hle, ?_⟩
  show [u] = [u].filter _
  rw [List.filter_cons_of_pos (hi.of_fitsIn hfits), List.filter_nil]

namespace Sifted

/-- An item with longer sides is put in the same place on both sheets. -/
theorem put (h : b.Sifted least c) (hi : i.AtLeast least) (hsolid : i.Solid) {spot : Spot}
    {used : Rect} {b' : Board} {p : Placement} (hput : Put b i spot used b' p) :
    ∃ spot' used' c' q, Put c i spot' used' c' q ∧ b'.Sifted least c' := by
  obtain ⟨spot', hfound, hsame⟩ := h.free.exists_spot h.ready.named h.ready'.named hi hput.found
  obtain ⟨used', c', q, hput'⟩ := h.ready'.bounded.exists_put hfound
  obtain ⟨r, hget, hget'⟩ := hsame.rect
  obtain rfl : r = used := Option.some.inj (hget.symm.trans hput.committed.found)
  obtain rfl : r = used' := Option.some.inj (hget'.symm.trans hput'.committed.found)
  obtain rfl : p = q := by rw [hput.placement, hput'.placement, hsame.orientation]
  obtain ⟨hmaterial, hindex, husable, hplaced, hcutting⟩ := hput.fields
  obtain ⟨hmaterial', hindex', husable', hplaced', hcutting'⟩ := hput'.fields
  refine ⟨spot', r, c', p, hput', hput.ready hsolid h.ready, hput'.ready hsolid h.ready', ?_, ?_,
    ?_, ?_, ?_, ?_, ?_⟩
  · rw [hmaterial, hmaterial', h.material]
  · rw [hindex, hindex', h.index]
  · rw [husable, husable', h.usable]
  · rw [hplaced, hplaced', h.placed]
  · rw [hcutting, hcutting', h.cutting]
  · rw [hcutting]
    exact h.weaker
  · have hcorner : Put.corner c spot' r = Put.corner b spot r := by
      rw [Put.corner, Put.corner, hsame.orientation, h.cutting]
    rw [hput.free_eq hsolid h.ready.toFeasible, hput'.free_eq hsolid h.ready'.toFeasible,
      FreeList.Sifted, FreeList.rects_insertAll, FreeList.rects_insertAll, List.filter_append,
      hsame.rest, hcorner, h.cutting, SplitRule.splitKept_sifted _ _ h.weaker]

/-- Both sheets are finished with the same items on them. -/
theorem finish (h : b.Sifted least c) :
    Logged.Leads (fun l k => l.sifted least = k) b.finish c.finish := by
  intro l hl
  obtain ⟨hall, rfl⟩ := h.ready.returns_finish_iff.1 hl
  refine ⟨c.layout, h.ready'.returns_finish_iff.2 ⟨?_, rfl⟩, ?_⟩
  · rw [h.cutting, Layout.Auditable, layout, h.placed]
    exact hall
  · show b.layout.sifted least = c.layout
    rw [layout, layout, h.material, h.index, h.usable, h.placed, h.free]
    rfl

end Sifted

end Board

end Guillotine
