import Guillotine.Proofs.Board.BestFit
import Guillotine.Proofs.Board.Handles
import Guillotine.Proofs.Board.Placed

/-! The best spot for an item. It is looked for in two nested searches, over the ways the item may
lie and over the free rectangles, which both keep what they found unless something is strictly
better. So the spot that is found leaves the least area of all, the item is turned only if this
leaves less than every rectangle does in which it lies as drawn, and of several such rectangles it
is the one that was inserted first. These conditions leave room for one spot only. -/
namespace Guillotine

/-- The area that an item leaves of a rectangle, in all integers. -/
def Item.leftOf (i : Item) (r : Rect) : ℤ := r.exact.area - i.width.toNat * i.height.toNat

namespace Item

variable {i : Item} {o o' : Orientation}

/-- An item as drawn. -/
def upright (i : Item) : Orientation := ⟨i.width, i.height, false⟩

/-- An item with its sides exchanged. -/
def turned (i : Item) : Orientation := ⟨i.height, i.width, true⟩

theorem upright_mem (i : Item) : i.upright ∈ i.orientations :=
  mem_orientations_iff.2 (.inl rfl)

theorem eq_upright_or_turned (ho : o ∈ i.orientations) : o = i.upright ∨ o = i.turned :=
  (mem_orientations_iff.1 ho).imp_right And.left

/-- An item lies as drawn, or is turned. -/
theorem eq_of_rotated (ho : o ∈ i.orientations) (ho' : o' ∈ i.orientations)
    (h : o.rotated = o'.rotated) : o = o' := by
  rcases eq_upright_or_turned ho with rfl | rfl <;> rcases eq_upright_or_turned ho' with rfl | rfl
  · rfl
  · cases h
  · cases h
  · rfl

/-- An item has one area, however it lies. -/
theorem toNat_leftOf (ho : o ∈ i.orientations) {r : Rect}
    (hfits : r.fits o.width o.height = true) :
    ((FreeList.leftOf o.width o.height r).toNat : ℤ) = i.leftOf r := by
  rw [FreeList.leftOf, Board.toNat_left hfits, leftOf]
  rcases eq_upright_or_turned ho with rfl | rfl
  · rfl
  · rw [turned, mul_comm (i.height.toNat : ℤ)]

end Item

namespace FreeList

variable {f : FreeList} {i : Item} {o : Orientation} {s s' : Spot}

/-! ### One way to lie -/

/-- Whether a spot is the best one for the way in which the item lies there: its rectangle is free
and large enough, the area left of it is the difference of the two areas and the least one, and of
all rectangles that leave this area it was inserted first. -/
structure BestAsLying (f : FreeList) (i : Item) (s : Spot) : Prop where
  free : ∃ r, (s.handle, r) ∈ f.entries ∧
    r.fits s.orientation.width s.orientation.height = true ∧ (s.left.toNat : ℤ) = i.leftOf r
  least : ∀ e ∈ f.entries, e.2.fits s.orientation.width s.orientation.height = true →
    (s.left.toNat : ℤ) ≤ i.leftOf e.2
  first : ∀ e ∈ f.entries, e.2.fits s.orientation.width s.orientation.height = true →
    i.leftOf e.2 = s.left.toNat → s.handle ≤ e.1

/-- What is found for one way to lie is the best for it. -/
theorem InTurn.bestAsLying (hf : f.InTurn) (ho : o ∈ i.orientations)
    (h : f.spotFor o = some s) : s.orientation = o ∧ f.BestAsLying i s := by
  obtain ⟨⟨handle, left⟩, hbest, rfl⟩ := Option.map_eq_some_iff.1 h
  obtain ⟨before, r, after, hentries, hfits, rfl⟩ := exists_fitsBest hbest
  have hleft {p : Rect} (hp : p.fits o.width o.height = true) := Item.toNat_leftOf ho hp
  have hmem : (handle, r) ∈ f.entries := by simp [hentries]
  have hturn := hf.ascending
  rw [hentries, List.pairwise_append, List.pairwise_cons] at hturn
  refine ⟨rfl, ⟨r, hmem, hfits.fits, hleft hfits.fits⟩, fun e he hfit => ?_,
    fun e he hfit heq => ?_⟩
  · rw [← hleft hfit, Nat.cast_le, ← UInt64.le_iff_toNat_le]
    rw [hentries] at he
    rcases List.mem_append.1 he with hbefore | hlater
    · exact UInt64.le_of_lt (hfits.before e hbefore hfit)
    · rcases List.mem_cons.1 hlater with rfl | hafter
      · exact UInt64.le_refl _
      · exact hfits.after e hafter hfit
  · rw [hentries] at he
    rcases List.mem_append.1 he with hbefore | hlater
    · -- In front of it there is no rectangle that leaves this area.
      have hmore := UInt64.lt_iff_toNat_lt.1 (hfits.before e hbefore hfit)
      rw [← hleft hfit, Nat.cast_inj] at heq
      exact absurd heq (Nat.ne_of_gt hmore)
    · rcases List.mem_cons.1 hlater with rfl | hafter
      · exact Nat.le_refl _
      · exact Nat.le_of_lt (hturn.2.1.1 e hafter)

theorem spotFor_eq_none_iff :
    f.spotFor o = none ↔ ∀ r ∈ f.rects, r.fits o.width o.height = false := by
  rw [spotFor, Option.map_eq_none_iff, bestFit_eq_none_iff]

/-! ### All ways to lie -/

/-- Whether a spot is the best one for an item: the best one for a way in which the item may lie,
which leaves the least area of all, and, where the item is turned, less than any rectangle in which
it lies as drawn. -/
structure Best (f : FreeList) (i : Item) (s : Spot) : Prop extends f.BestAsLying i s where
  allowed : s.orientation ∈ i.orientations
  leastOfAll : ∀ o ∈ i.orientations, ∀ r ∈ f.rects, r.fits o.width o.height = true →
    (s.left.toNat : ℤ) ≤ i.leftOf r
  turned : s.orientation.rotated = true → ∀ r ∈ f.rects, r.fits i.width i.height = true →
    (s.left.toNat : ℤ) < i.leftOf r

/-- The spot for an item is the better one of the two for the ways it may lie. -/
theorem findSpot_eq (f : FreeList) (i : Item) : f.findSpot i = betterSpot (f.spotFor i.upright)
    (if i.turned ∈ i.orientations then f.spotFor i.turned else none) := by
  have hnone (s : Option Spot) : betterSpot none s = s := by cases s <;> rfl
  have hsome (s : Option Spot) : betterSpot s none = s := by cases s <;> rfl
  unfold findSpot
  by_cases hturn : i.turned ∈ i.orientations
  · have hboth : i.orientations = [i.upright, i.turned] := by
      unfold Item.orientations at hturn ⊢
      split at hturn
      next hmay => rw [if_pos hmay]; rfl
      next => simp [Item.turned] at hturn
    rw [if_pos hturn, hboth, List.foldl_cons, List.foldl_cons, List.foldl_nil, hnone]
  · have hone : i.orientations = [i.upright] := by
      unfold Item.orientations at hturn ⊢
      split at hturn
      next => simp [Item.turned] at hturn
      next hnot => rw [if_neg hnot]; rfl
    rw [if_neg hturn, hone, List.foldl_cons, List.foldl_nil, hnone, hsome]

/-- The first one of two spots is better unless the second one leaves strictly less. -/
theorem betterSpot_cases {a b : Option Spot} (h : betterSpot a b = some s) :
    (a = some s ∧ ∀ s', b = some s' → s.left ≤ s'.left) ∨
      (b = some s ∧ ∀ s', a = some s' → s.left < s'.left) := by
  cases a with
  | none => exact .inr ⟨h, nofun⟩
  | some a =>
    cases b with
    | none => exact .inl ⟨h, nofun⟩
    | some b =>
      rw [betterSpot, Option.some.injEq] at h
      split at h
      next hless =>
        subst h
        exact .inr ⟨rfl, fun _ hs => Option.some.inj hs ▸ hless⟩
      next hno =>
        subst h
        exact .inl ⟨rfl, fun _ hs => Option.some.inj hs ▸ UInt64.not_lt.1 hno⟩

/-- What bounds the area left of the spot for one way to lie bounds the area left of every
rectangle. -/
theorem InTurn.le_leftOf (hf : f.InTurn) (ho : o ∈ i.orientations) {least : ℤ}
    (h : ∀ s, f.spotFor o = some s → least ≤ s.left.toNat) :
    ∀ r ∈ f.rects, r.fits o.width o.height = true → least ≤ i.leftOf r := by
  intro r hr hfits
  cases hspot : f.spotFor o with
  | none => exact absurd hfits (by simp [spotFor_eq_none_iff.1 hspot r hr])
  | some s =>
    obtain ⟨e, he, rfl⟩ := List.mem_map.1 hr
    obtain ⟨rfl, hbest⟩ := hf.bestAsLying ho hspot
    exact (h s hspot).trans (hbest.least e he hfits)

/-- The spot that is found is the best one. -/
theorem InTurn.best (hf : f.InTurn) (h : f.findSpot i = some s) : f.Best i s := by
  rw [findSpot_eq] at h
  have hturned {s' : Spot} (hs : f.spotFor i.turned = some s') (hmay : i.turned ∈ i.orientations) :
      (if i.turned ∈ i.orientations then f.spotFor i.turned else none) = some s' := by
    rw [if_pos hmay, hs]
  rcases betterSpot_cases h with ⟨hspot, hleast⟩ | ⟨hspot, hless⟩
  · obtain ⟨hlies, hbest⟩ := hf.bestAsLying i.upright_mem hspot
    refine ⟨hbest, hlies ▸ i.upright_mem, fun o ho => ?_, fun hrot => ?_⟩
    · refine hf.le_leftOf ho fun s' hs => Nat.cast_le.2 (UInt64.le_iff_toNat_le.1 ?_)
      rcases Item.eq_upright_or_turned ho with rfl | rfl
      · rw [Option.some.inj (hspot.symm.trans hs)]
        exact UInt64.le_refl _
      · exact hleast s' (hturned hs ho)
    · rw [hlies] at hrot
      cases hrot
  · obtain ⟨hmay, hspot⟩ := Option.ite_none_right_eq_some.1 hspot
    obtain ⟨hlies, hbest⟩ := hf.bestAsLying hmay hspot
    refine ⟨hbest, hlies ▸ hmay, fun o ho => ?_, fun _ => ?_⟩
    · refine hf.le_leftOf ho fun s' hs => Nat.cast_le.2 (UInt64.le_iff_toNat_le.1 ?_)
      rcases Item.eq_upright_or_turned ho with rfl | rfl
      · exact UInt64.le_of_lt (hless s' hs)
      · rw [Option.some.inj (hspot.symm.trans hs)]
        exact UInt64.le_refl _
    · have hmore : ∀ s', f.spotFor i.upright = some s' → (s.left.toNat + 1 : ℤ) ≤ s'.left.toNat :=
        fun s' hs => by exact_mod_cast UInt64.lt_iff_toNat_lt.1 (hless s' hs)
      exact hf.le_leftOf i.upright_mem hmore

/-- There is one best spot at most. -/
theorem Best.unique (h : f.Best i s) (h' : f.Best i s') : s = s' := by
  have hrects {e : Handle × Rect} (he : e ∈ f.entries) : e.2 ∈ f.rects := List.mem_map_of_mem he
  obtain ⟨r, hr, hfits, hleft⟩ := h.free
  obtain ⟨r', hr', hfits', hleft'⟩ := h'.free
  have hle := h.leastOfAll _ h'.allowed r' (hrects hr') hfits'
  have hge := h'.leastOfAll _ h.allowed r (hrects hr) hfits
  have hsame : s.left = s'.left := UInt64.toNat_inj.1 (by omega)
  have hrotated : s.orientation.rotated = s'.orientation.rotated := by
    -- Where one of them is turned and the other is not, the turned one leaves strictly less.
    cases hs : s.orientation.rotated <;> cases hs' : s'.orientation.rotated
    · rfl
    · have hup : s.orientation = i.upright := Item.eq_of_rotated h.allowed i.upright_mem hs
      rw [hup] at hfits
      have hless := h'.turned hs' r (hrects hr) hfits
      omega
    · have hup : s'.orientation = i.upright := Item.eq_of_rotated h'.allowed i.upright_mem hs'
      rw [hup] at hfits'
      have hless := h.turned hs r' (hrects hr') hfits'
      omega
    · rfl
  have hlies := Item.eq_of_rotated h.allowed h'.allowed hrotated
  have hbefore := h.first _ hr' (hlies ▸ hfits') (by rw [← hleft', hsame])
  have hafter := h'.first _ hr (hlies ▸ hfits) (by rw [← hleft, hsame])
  obtain ⟨handle, lies, left⟩ := s
  rw [Spot.mk.injEq]
  exact ⟨Nat.le_antisymm hbefore hafter, hlies, hsame⟩

/-- Whatever free list the operations lead to, there is a spot for an item just if one of the ways
it may lie fits a free rectangle, and the spot that is found is the one that is best. -/
theorem findSpot_best (hf : f.Reached) (i : Item) :
    ((f.findSpot i).isSome = true ↔
      ∃ o ∈ i.orientations, ∃ r ∈ f.rects, r.fits o.width o.height = true) ∧
    ∀ s, f.findSpot i = some s ↔ f.Best i s := by
  have hturn := hf.inTurn
  have hsome : (f.findSpot i).isSome = true ↔
      ∃ o ∈ i.orientations, ∃ r ∈ f.rects, r.fits o.width o.height = true := by
    rw [← not_iff_not, Bool.not_eq_true, Option.isSome_eq_false_iff, Option.isNone_iff_eq_none,
      findSpot_eq_none_iff]
    simp only [Item.fitsIn, List.any_eq_false, not_exists, not_and]
    exact ⟨fun h o ho r hr => h r hr o ho, fun h r hr o ho => h o ho r hr⟩
  refine ⟨hsome, fun s => ⟨hturn.best, fun hbest => ?_⟩⟩
  obtain ⟨r, hr, hfits, -⟩ := hbest.free
  obtain ⟨s', hs'⟩ := Option.isSome_iff_exists.1
    (hsome.2 ⟨s.orientation, hbest.allowed, r, List.mem_map_of_mem hr, hfits⟩)
  rw [hs', (hturn.best hs').unique hbest]

/-- Free rectangles of which one was used up, two that leave a slat the same area, and a small
one. -/
def offcuts : FreeList :=
  ((single ⟨0, 0, 10, 10⟩).insertAll
    [⟨100, 0, 20, 20⟩, ⟨200, 0, 20, 20⟩, ⟨300, 0, 40, 10⟩]).remove 1

def slat : Item := ⟨"slat", "oak", 15, 10, true, 0, none, none⟩

theorem reached_offcuts : offcuts.Reached := ((Reached.single _).insertAll _).remove 1

/-- The slat lies as drawn in the first rectangle that leaves the least area, though it fits there
turned as well, and fits another one that leaves no more. -/
theorem findSpot_best_offcuts : offcuts.Reached ∧ (offcuts.findSpot slat).isSome = true ∧
    offcuts.Best slat ⟨2, ⟨15, 10, false⟩, 250⟩ := by
  have hbest := findSpot_best reached_offcuts slat
  refine ⟨reached_offcuts, hbest.1.2 ?_, (hbest.2 _).1 rfl⟩
  exact ⟨slat.upright, slat.upright_mem, ⟨200, 0, 20, 20⟩, by decide, rfl⟩

end FreeList

end Guillotine
