import Guillotine.Proofs.Board.Pruning
import Guillotine.Proofs.Plane.Exact
import Guillotine.Proofs.Runs

/-! Placing items never faults and is exact, whatever the items are, also those without an extent.
The free rectangles of a sheet stay inside its usable region, whose far edges are lengths. So all
far edges that pruning looks at are lengths, a place that is found is a live free rectangle in which
the item fits, and the parts of a split are those of the same formulas in all integers. -/
namespace Guillotine

namespace FreeList

variable {f g : FreeList} {h : Handle} {r : Rect} {w t : Length} {left : Area} {i : Item}
  {spot : Spot}

/-! ### Finding a place -/

/-- A handle that is given out once leads to its rectangle. -/
theorem Named.get?_of_mem (hf : f.Named) (hr : (h, r) ∈ f.entries) : f.get? h = some r := by
  cases hget : f.get? h with
  | none =>
    rw [get?, List.lookup_eq_none_iff] at hget
    simpa using hget _ hr
  | some o =>
    have heq := List.inj_on_of_nodup_map hf.nodup (mem_entries_of_get? hget) hr rfl
    rw [(Prod.mk.inj heq).2]

/-- A place that is found is a live free rectangle in which the item fits. -/
theorem Named.exists_of_findSpot (hf : f.Named) (hs : f.findSpot i = some spot) :
    ∃ r, f.get? spot.handle = some r ∧
      r.fits spot.orientation.width spot.orientation.height = true ∧
      spot.left =
        r.area - Length.times spot.orientation.width spot.orientation.height := by
  obtain ⟨o, -, hspot⟩ := exists_spotFor hs
  obtain ⟨⟨k, left⟩, hbest, rfl⟩ := Option.map_eq_some_iff.1 hspot
  obtain ⟨r, hr, hfits, hleft⟩ := exists_of_bestFit hbest
  exact ⟨r, hf.get?_of_mem hr, hfits, hleft⟩

end FreeList

namespace Board

variable {b b' : Board} {i : Item} {spot : Spot} {used : Rect} {p : Placement} {m : Material}
  {index : UInt64} {saw : Saw} {s : Settings} {items rest : List Item}

/-! ### The invariant -/

/-- Whether the free rectangles of a sheet have a handle each and lie inside its usable region, the
far edges of which are lengths. -/
structure Bounded (b : Board) : Prop where
  named : b.free.Named
  edges : b.usable.HasEdges
  inside : ∀ r ∈ b.free.rects, r.region.Inside b.usable.region

theorem bounded_opened (h : opened m index saw s = .ok b) : b.Bounded := by
  obtain ⟨u, hu, rfl⟩ := opened_eq_ok_iff.1 h
  refine ⟨FreeList.named_single u, (Saw.usable_spec hu).hasEdges, ?_⟩
  rw [FreeList.rects_single, List.forall_mem_singleton]
  exact Region.Inside.refl _

/-- What is free when a spot has been used, before pruning. -/
def unpruned (b : Board) (spot : Spot) (used : Rect) : FreeList :=
  (b.free.remove spot.handle).insertAll
    (b.cutting.rule.splitKept (Put.corner b spot used) b.cutting.leastSide)

namespace Bounded

variable (hb : b.Bounded) (hlive : b.free.get? spot.handle = some used)
  (hfits : used.fits spot.orientation.width spot.orientation.height = true)

include hb hlive hfits

theorem fitting : (Put.corner b spot used).Fitting := by
  obtain ⟨hw, hh⟩ := Rect.fits_iff.1 hfits
  exact ⟨UInt32.le_iff_toNat_le.1 hw, UInt32.le_iff_toNat_le.1 hh,
    hb.edges.of_inside (hb.inside used (FreeList.mem_rects_of_get? hlive))⟩

theorem unpruned_inside : ∀ r ∈ (b.unpruned spot used).rects, r.region.Inside b.usable.region := by
  rw [unpruned, FreeList.rects_insertAll, List.forall_mem_append]
  refine ⟨fun r hr => hb.inside r ?_, fun r hr => ?_⟩
  · exact (FreeList.cons_rects_remove_subperm hlive).subset (List.mem_cons_of_mem _ hr)
  · exact (Corner.inside_of_mem_split (hb.fitting hlive hfits) (List.mem_of_mem_filter hr)).trans
      (hb.inside used (FreeList.mem_rects_of_get? hlive))

end Bounded

/-- A placement keeps what is free inside the usable region. -/
theorem Put.bounded (h : Put b i spot used b' p) (hb : b.Bounded) : b'.Bounded := by
  have hused : b'.usable = b.usable := by rw [h.board]
  refine ⟨((hb.named.remove _).insertAll _).prune h.committed.pruned, hused ▸ hb.edges, ?_⟩
  intro r hr
  rw [hused]
  exact hb.unpruned_inside h.committed.found h.committed.fits r
    ((FreeList.rects_prune_sublist h.committed.pruned).subset hr)

/-! ### Placing -/

/-- Whether a spot is used exactly: its free rectangle is there and the item fits it, the area left
of it is the true difference, all far edges that pruning looks at are lengths, the rectangle is
committed, and the parts of its split are those of the same formulas in all integers. -/
structure UsesExactly (b : Board) (spot : Spot) (used : Rect) : Prop where
  live : b.free.get? spot.handle = some used
  fits : used.fits spot.orientation.width spot.orientation.height = true
  left : (spot.left.toNat : ℤ) =
    used.exact.area - spot.orientation.width.toNat * spot.orientation.height.toNat
  edges : ∀ r ∈ (b.unpruned spot used).rects,
    (∃ e, r.right = .ok e) ∧ ∃ e, r.bottom = .ok e
  committed : ∃ free, (b.unpruned spot used).prune = .ok free ∧
    b.free.commit spot.handle spot.orientation.width spot.orientation.height b.cutting =
      (free, .ok used)
  parts : (b.cutting.rule.split (Put.corner b spot used)).map Rect.exact =
    b.cutting.rule.exactSplit (Put.corner b spot used).exact

/-- Whether an item is placed exactly: no area left of a free rectangle wraps around, a spot that is
found is used exactly, and there is an answer, whoever watches. -/
structure PlacesExactly (b : Board) (i : Item) : Prop where
  left : ∀ o ∈ i.orientations, ∀ r ∈ b.free.rects, r.fits o.width o.height = true →
    ((r.area - Length.times o.width o.height).toNat : ℤ) =
      r.exact.area - o.width.toNat * o.height.toNat
  uses : ∀ spot, b.free.findSpot i = some spot → ∃ used, b.UsesExactly spot used
  returns : ∃ answer, ∀ v, ((b.place i).record v).2 = .ok answer

/-- No area left of a free rectangle wraps around. -/
theorem toNat_left {r : Rect} {w t : Length} (hfits : r.fits w t = true) :
    ((r.area - Length.times w t).toNat : ℤ) = r.exact.area - w.toNat * t.toNat := by
  have hle := Rect.area_le_of_fits hfits
  rw [UInt64.toNat_sub_of_le _ _ hle, Nat.cast_sub (UInt64.le_iff_toNat_le.1 hle),
    Rect.area_exact, Length.toNat_times, Nat.cast_mul]

namespace Bounded

/-- A spot that is found is taken. -/
theorem exists_committed (hb : b.Bounded) (hlive : b.free.get? spot.handle = some used)
    (hfits : used.fits spot.orientation.width spot.orientation.height = true) :
    ∃ free, FreeList.Committed b.free spot.handle spot.orientation.width spot.orientation.height
      b.cutting free used := by
  have hnamed : (b.unpruned spot used).Named := (hb.named.remove _).insertAll _
  have hfree := FreeList.prune_eq hnamed fun r hr =>
    hb.edges.of_inside (hb.unpruned_inside hlive hfits r hr)
  exact ⟨_, hlive, hfits, hfree⟩

/-- A spot that is found is used exactly. -/
theorem usesExactly (hb : b.Bounded) (hs : b.free.findSpot i = some spot) :
    ∃ used, b.UsesExactly spot used := by
  obtain ⟨used, hlive, hfits, hleft⟩ := hb.named.exists_of_findSpot hs
  obtain ⟨free, hfree⟩ := hb.exists_committed hlive hfits
  refine ⟨used, hlive, hfits, ?_, fun r hr => ?_, ?_, ?_⟩
  · rw [hleft]
    exact toNat_left hfits
  · have hedges := hb.edges.of_inside (hb.unpruned_inside hlive hfits r hr)
    obtain ⟨right, hright, -⟩ := hedges.exists_right
    obtain ⟨bottom, hbottom, -⟩ := hedges.exists_bottom
    exact ⟨⟨right, hright⟩, bottom, hbottom⟩
  · exact ⟨free, hfree.pruned, FreeList.commit_eq_ok_iff.2 hfree⟩
  · exact Corner.split_exact (hb.fitting hlive hfits) _

/-- An item is put in the spot that is found for it. -/
theorem exists_put (hb : b.Bounded) (hs : b.free.findSpot i = some spot) :
    ∃ used b' p, Put b i spot used b' p := by
  obtain ⟨used, hlive, hfits, -⟩ := hb.named.exists_of_findSpot hs
  obtain ⟨free, hfree⟩ := hb.exists_committed hlive hfits
  exact ⟨used, { b with free, placed := b.placed ++ [_] }, _, hs, hfree, rfl, rfl⟩

/-- Placing an item returns. -/
theorem place_returns (hb : b.Bounded) (i : Item) : ∃ answer, (b.place i).Returns answer := by
  cases hs : b.free.findSpot i with
  | none => exact ⟨none, place_returns_none_iff.2 hs⟩
  | some spot =>
    obtain ⟨used, b', p, hput⟩ := hb.exists_put hs
    exact ⟨some (b', p), place_returns_some_iff.2 ⟨spot, used, hput⟩⟩

end Bounded

/-- No notice of a placement faults. -/
theorem quiet_place (b : Board) (i : Item) : (b.place i).Quiet := by
  unfold place
  split
  · exact Logged.quiet_pure _
  · exact (Logged.quiet_note _ _).bind fun _ => (Logged.quiet_lift _).bind fun _ =>
      Logged.quiet_pure _

theorem Bounded.placesExactly (hb : b.Bounded) (i : Item) : b.PlacesExactly i := by
  refine ⟨fun o _ r _ => toNat_left, fun spot => hb.usesExactly, ?_⟩
  obtain ⟨answer, hanswer⟩ := hb.place_returns i
  exact ⟨answer, fun v => (quiet_place b i v).trans hanswer⟩

end Board

namespace Board

variable {b b' : Board} {i : Item} {spot : Spot} {used : Rect} {p : Placement} {m : Material}
  {index : UInt64} {saw : Saw} {s : Settings}

/-- A placement changes what is free and adds to what is placed, and nothing else. -/
theorem Put.fields (h : Put b i spot used b' p) : b'.material = b.material ∧ b'.index = b.index ∧
    b'.usable = b.usable ∧ b'.placed = b.placed ++ [p] ∧ b'.cutting = b.cutting := by
  rw [h.board]
  exact ⟨rfl, rfl, rfl, rfl, rfl⟩

/-! ### Sheets in order -/

/-- Whether a sheet can be cut as it is, and its free rectangles have a handle each. -/
structure Ready (b : Board) : Prop extends b.Feasible where
  named : b.free.Named

theorem Ready.bounded (hb : b.Ready) : b.Bounded :=
  ⟨hb.named, hb.edges, fun _ hr => hb.inside hr⟩

theorem ready_opened (h : opened m index saw s = .ok b) : b.Ready :=
  ⟨feasible_opened h, (bounded_opened h).named⟩

theorem Put.ready (h : Put b i spot used b' p) (hi : i.Solid) (hb : b.Ready) : b'.Ready :=
  ⟨h.feasible hi hb.toFeasible, (h.bounded hb.bounded).named⟩

end Board

/-! ### Placing items in a row -/

namespace Packer

variable {b b' : Board} {m : Material} {index : UInt64} {saw : Saw} {s : Settings}

/-- No notice of a filling faults. -/
theorem quiet_fill (b : Board) (items : List Item) : (fill b items).Quiet := by
  induction items generalizing b with
  | nil => exact Logged.quiet_pure _
  | cons i items ih =>
    rw [fill]
    refine (Board.quiet_place b i).bind fun answer => ?_
    cases answer with
    | some answer => exact (Logged.quiet_note _ _).bind fun _ => ih _
    | none => exact (ih b).bind fun _ => Logged.quiet_pure _

/-- Offering items to a sheet returns, and what is free stays inside its usable region. -/
theorem fill_returns (hb : b.Bounded) (items : List Item) :
    ∃ b' rest, (fill b items).Returns (b', rest) ∧ b'.Bounded := by
  induction items generalizing b with
  | nil => exact ⟨b, [], Logged.returns_pure.2 rfl, hb⟩
  | cons i items ih =>
    obtain ⟨answer, hanswer⟩ := hb.place_returns i
    cases answer with
    | none =>
      obtain ⟨b', rest, hfill, hb'⟩ := ih hb
      refine ⟨b', i :: rest, ?_, hb'⟩
      rw [fill, Logged.returns_bind]
      exact ⟨none, hanswer, Logged.returns_bind.2 ⟨_, hfill, Logged.returns_pure.2 rfl⟩⟩
    | some answer =>
      obtain ⟨next, p⟩ := answer
      obtain ⟨spot, used, hput⟩ := Board.place_returns_some_iff.1 hanswer
      obtain ⟨b', rest, hfill, hb'⟩ := ih (hput.bounded hb)
      refine ⟨b', rest, ?_, hb'⟩
      rw [fill, Logged.returns_bind]
      exact ⟨some (next, p), hanswer, Logged.returns_note_bind.2 hfill⟩

end Packer

/-- Whatever items are offered to a new sheet one after the other, none of the offers faults,
whoever watches, and whatever item is offered next is placed exactly. -/
theorem fill_placesExactly {m : Material} {index : UInt64} {saw : Saw} {s : Settings} {b : Board}
    (h : Board.opened m index saw s = .ok b) (items : List Item) :
    ∃ b' rest, (∀ v, ((Packer.fill b items).record v).2 = .ok (b', rest)) ∧
      ∀ i, b'.PlacesExactly i := by
  obtain ⟨b', rest, hfill, hb'⟩ := Packer.fill_returns (Board.bounded_opened h) items
  exact ⟨b', rest, fun v => (Packer.quiet_fill b items v).trans hfill, hb'.placesExactly⟩

/-- The largest sheet there is. -/
def slab : Material := ⟨"slab", 4294967295, 4294967295, 1, 0, none⟩

/-- The widest blade there is. -/
def slabSaw : Saw := ⟨4294967295, 1, 1, 1, 1⟩

/-- Items without an extent, with a small one and with the largest one. -/
def slabItems : List Item :=
  [⟨"line", "slab", 0, 7, true, 0, none, none⟩, ⟨"chip", "slab", 5, 5, true, 0, none, none⟩,
    ⟨"slice", "slab", 4294967293, 9, true, 0, none, none⟩]

theorem fill_placesExactly_slab :
    ∃ b, Board.opened slab 1 slabSaw .standard = .ok b ∧
      ∃ b' rest, (∀ v, ((Packer.fill b slabItems).record v).2 = .ok (b', rest)) ∧
        ∀ i, b'.PlacesExactly i := by
  have hopened : Board.opened slab 1 slabSaw .standard = .ok ⟨slab, 1,
      ⟨1, 1, 4294967293, 4294967293⟩, .single ⟨1, 1, 4294967293, 4294967293⟩, [],
      ⟨4294967295, Settings.standard.rule, Settings.standard.leastSide⟩⟩ := rfl
  exact ⟨_, hopened, fill_placesExactly hopened slabItems⟩

end Guillotine
