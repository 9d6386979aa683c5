import Guillotine.Proofs.Board.Reached

/-! Room on a sheet. An item finds a place just if it fits a free rectangle in one of the ways it
may lie. What is free after a placement is no larger than something that was free before it, so
where an item found no room once, it finds none later. -/
namespace Guillotine

/-- What fits a rectangle fits any that is as wide and as tall. -/
theorem Item.fitsIn_mono {i : Item} {r s : Rect} (hw : r.width ≤ s.width)
    (hh : r.height ≤ s.height) (h : i.fitsIn s = false) : i.fitsIn r = false := by
  simp only [Item.fitsIn, List.any_eq_false] at h ⊢
  intro o ho hr
  obtain ⟨hwidth, hheight⟩ := Rect.fits_iff.1 hr
  exact h o ho (Rect.fits_iff.2 ⟨UInt32.le_trans hwidth hw, UInt32.le_trans hheight hh⟩)

/-! ### Parts of a split -/

theorem Length.subFloored_le (a b : Length) : subFloored a b ≤ a := by
  rw [UInt32.le_iff_toNat_le, toNat_subFloored]
  exact Nat.sub_le _ _

namespace Corner

variable {c : Corner} {p : Rect}

theorem rightPart_size {height : Length} (h : c.rightPart height = some p) :
    p.width ≤ c.free.width ∧ p.height = height := by
  unfold rightPart at h
  obtain ⟨-, h⟩ := Option.ite_none_right_eq_some.1 h
  obtain rfl := Option.some.inj h
  exact ⟨Length.subFloored_le _ _, rfl⟩

theorem lowerPart_size {width : Length} (h : c.lowerPart width = some p) :
    p.width = width ∧ p.height ≤ c.free.height := by
  unfold lowerPart at h
  obtain ⟨-, h⟩ := Option.ite_none_right_eq_some.1 h
  obtain rfl := Option.some.inj h
  exact ⟨rfl, Length.subFloored_le _ _⟩

/-- Whatever the rule, no part is wider or taller than the free rectangle. -/
theorem split_size {rule : SplitRule} (hw : c.width ≤ c.free.width)
    (hh : c.height ≤ c.free.height) (hp : p ∈ rule.split c) :
    p.width ≤ c.free.width ∧ p.height ≤ c.free.height := by
  have hright : ∀ {height : Length}, height ≤ c.free.height → p ∈ (c.rightPart height).toList →
      p.width ≤ c.free.width ∧ p.height ≤ c.free.height := by
    intro height hle hm
    obtain ⟨hwidth, rfl⟩ := rightPart_size (Option.mem_toList.1 hm)
    exact ⟨hwidth, hle⟩
  have hlower : ∀ {width : Length}, width ≤ c.free.width → p ∈ (c.lowerPart width).toList →
      p.width ≤ c.free.width ∧ p.height ≤ c.free.height := by
    intro width hle hm
    obtain ⟨rfl, hheight⟩ := lowerPart_size (Option.mem_toList.1 hm)
    exact ⟨hle, hheight⟩
  unfold SplitRule.split at hp
  split at hp
  · exact (List.mem_append.1 hp).elim (hright hh) (hlower (UInt32.le_refl _))
  · exact (List.mem_append.1 hp).elim (hlower hw) (hright (UInt32.le_refl _))

end Corner

namespace FreeList

variable {f g : FreeList} {h : Handle} {r : Rect} {w t : Length} {i : Item}

/-! ### Finding nothing -/

/-- A search that keeps what it has found finds nothing just if it passes over everything. -/
theorem foldl_eq_none_iff {α β : Type} {k : Option β → α → Option β} {P : α → Prop}
    (hk : ∀ best a, k best a = none ↔ best = none ∧ P a) (as : List α) (start : Option β) :
    as.foldl k start = none ↔ start = none ∧ ∀ a ∈ as, P a := by
  induction as generalizing start with
  | nil => simp
  | cons a as ih => rw [List.foldl_cons, ih, hk, List.forall_mem_cons, and_assoc]

theorem bestFit_eq_none_iff : f.bestFit w t = none ↔ ∀ r ∈ f.rects, r.fits w t = false := by
  unfold bestFit
  rw [foldl_eq_none_iff (P := fun e : Handle × Rect => e.2.fits w t = false)
    (fun best e => by cases hfits : e.2.fits w t <;> simp [hfits]), rects, List.forall_mem_map]
  exact and_iff_right rfl

/-- An item finds no place just if it fits no free rectangle. -/
theorem findSpot_eq_none_iff : f.findSpot i = none ↔ ∀ r ∈ f.rects, i.fitsIn r = false := by
  have hsearch := foldl_eq_none_iff (P := fun o => f.spotFor o = none)
    (k := fun best o => betterSpot best (f.spotFor o))
    (fun best o => by cases best <;> cases f.spotFor o <;> simp [betterSpot]) i.orientations none
  rw [findSpot, hsearch]
  simp only [true_and, spotFor, Option.map_eq_none_iff, bestFit_eq_none_iff, Item.fitsIn,
    List.any_eq_false, Bool.not_eq_true]
  exact ⟨fun h r hr o ho => h o ho r hr, fun h o ho r hr => h r hr o ho⟩

/-! ### What a commitment leaves -/

/-- A rectangle that is free after a commitment is no larger than one that was free before. -/
theorem Committed.exists_larger {c : Cutting} (hc : Committed f h w t c g r) {p : Rect}
    (hp : p ∈ g.rects) : ∃ o ∈ f.rects, p.width ≤ o.width ∧ p.height ≤ o.height := by
  rcases List.mem_append.1 (hc.rects_sublist.subset hp) with hold | hpart
  · have hmem := (cons_rects_remove_subperm hc.found).subset (List.mem_cons_of_mem r hold)
    exact ⟨p, hmem, UInt32.le_refl _, UInt32.le_refl _⟩
  · obtain ⟨hw, ht⟩ := Rect.fits_iff.1 hc.fits
    have hsize := Corner.split_size (c := ⟨r, w, t, c.kerf⟩) hw ht (List.mem_of_mem_filter hpart)
    exact ⟨r, hc.mem, hsize⟩

end FreeList

/-! ### Sheets without room -/

/-- Whether no remainder of a sheet has room for an item, however the item may lie. -/
def Layout.NoRoom (l : Layout) (i : Item) : Prop := ∀ r ∈ l.remainders, i.fitsIn r = false

namespace Board

variable {b b' : Board} {i j : Item} {p : Placement}

/-- Whether nothing that is free on a sheet has room for an item, however the item may lie. -/
def NoRoom (b : Board) (i : Item) : Prop := ∀ r ∈ b.free.rects, i.fitsIn r = false

/-- An item is left over just if there is no room for it. -/
theorem place_returns_none_iff_noRoom : (b.place i).Returns none ↔ b.NoRoom i :=
  place_returns_none_iff.trans FreeList.findSpot_eq_none_iff

/-- No placement makes room. -/
theorem NoRoom.place (h : b.NoRoom j) (hp : (b.place i).Returns (some (b', p))) : b'.NoRoom j := by
  obtain ⟨spot, used, hput⟩ := place_returns_some_iff.1 hp
  intro r hr
  obtain ⟨o, ho, hw, hh⟩ := hput.committed.exists_larger hr
  exact Item.fitsIn_mono hw hh (h o ho)

/-- A new sheet has no room just for the items that do not fit its usable region. -/
theorem noRoom_opened_iff {m : Material} {index : UInt64} {saw : Saw} {s : Settings}
    (h : opened m index saw s = .ok b) : b.NoRoom i ↔ i.fitsIn b.usable = false := by
  obtain ⟨u, -, rfl⟩ := opened_eq_ok_iff.1 h
  simp [NoRoom]

/-- What does not fit a sheet at all finds no room on it later. -/
theorem Reached.noRoom {m : Material} {saw : Saw} {s : Settings} {items : List Item}
    (h : Reached m saw s items b) (hi : i.fitsIn b.usable = false) : b.NoRoom i := by
  induction h with
  | opened h => exact (noRoom_opened_iff h).2 hi
  | placed hb hp ih =>
    obtain ⟨spot, used, hput⟩ := place_returns_some_iff.1 hp
    rw [hput.board] at hi
    exact (ih hi).place hp

end Board

end Guillotine
