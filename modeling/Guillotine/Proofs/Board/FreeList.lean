import Guillotine.Board.Fit
import Guillotine.Proofs.Returns
import Mathlib.Data.List.Perm.Subperm

/-! What the operations on a free list do to its rectangles. A commitment takes the rectangle used
off the list, adds the parts of the split that are kept, and may drop more; a place that is found
is a free rectangle in which one of the item's orientations fits. -/
namespace Guillotine

namespace FreeList

variable {f g : FreeList} {h : Handle} {r : Rect} {w t : Length}

@[simp] theorem rects_single (r : Rect) : (single r).rects = [r] := rfl

@[simp] theorem rects_insert (f : FreeList) (r : Rect) : (f.insert r).rects = f.rects ++ [r] := by
  simp [insert, rects]

@[simp] theorem rects_insertAll (f : FreeList) (rs : List Rect) :
    (f.insertAll rs).rects = f.rects ++ rs := by
  induction rs generalizing f with
  | nil => simp [insertAll]
  | cons r rs ih =>
    change ((f.insert r).insertAll rs).rects = _
    rw [ih, rects_insert, List.append_assoc, List.singleton_append]

/-! ### Removing -/

theorem mem_entries_of_get? (hr : f.get? h = some r) : (h, r) ∈ f.entries := by
  obtain ⟨es, n⟩ := f
  simp only [get?] at hr ⊢
  induction es with
  | nil => cases hr
  | cons e es ih =>
    obtain ⟨k, o⟩ := e
    rw [List.lookup_cons] at hr
    split at hr
    next hk =>
      obtain rfl := beq_iff_eq.1 hk
      obtain rfl := Option.some.inj hr
      exact List.mem_cons_self
    next => exact List.mem_cons_of_mem _ (ih hr)

theorem mem_rects_of_get? (hr : f.get? h = some r) : r ∈ f.rects :=
  List.mem_map_of_mem (mem_entries_of_get? hr)

/-- A rectangle under a handle is none of those that are left when the handle is removed. -/
theorem cons_rects_remove_subperm (hr : f.get? h = some r) :
    (r :: (f.remove h).rects).Subperm f.rects := by
  have hmem := mem_entries_of_get? hr
  have hsub : (f.remove h).entries.Sublist (f.entries.erase (h, r)) := by
    have hnot : (h, r) ∉ (f.remove h).entries := by simp [remove]
    rw [← List.erase_of_not_mem hnot]
    exact List.filter_sublist.erase (h, r)
  have hp : f.rects.Perm (r :: (f.entries.erase (h, r)).map Prod.snd) :=
    (List.perm_cons_erase hmem).map Prod.snd
  exact (List.subperm_cons r).2 (hsub.map Prod.snd).subperm |>.trans hp.symm.subperm

/-! ### Pruning -/

theorem uncovered_sublist {all es kept : List (Handle × Rect)}
    (hk : uncovered all es = .ok kept) : kept.Sublist es := by
  induction es generalizing kept with
  | nil =>
    cases hk
    exact List.Sublist.refl []
  | cons e es ih =>
    obtain ⟨k, o⟩ := e
    simp only [uncovered] at hk
    obtain ⟨covered, -, hk⟩ := bind_eq_ok_iff.1 hk
    obtain ⟨rest, hrest, hk⟩ := bind_eq_ok_iff.1 hk
    obtain rfl := Except.ok.inj hk
    split
    · exact (ih hrest).cons _
    · exact (ih hrest).cons_cons _

/-- Pruning keeps rectangles with their handles, in order. -/
theorem prune_sublist (hp : f.prune = .ok g) :
    g.entries.Sublist f.entries ∧ g.next = f.next := by
  unfold prune at hp
  obtain ⟨kept, hkept, hp⟩ := bind_eq_ok_iff.1 hp
  obtain rfl := Except.ok.inj hp
  exact ⟨uncovered_sublist hkept, rfl⟩

theorem rects_prune_sublist (hp : f.prune = .ok g) : g.rects.Sublist f.rects :=
  (prune_sublist hp).1.map Prod.snd

/-! ### Committing -/

/-- What a commitment that succeeds has done. -/
structure Committed (f : FreeList) (h : Handle) (w t : Length) (c : Cutting) (g : FreeList)
    (r : Rect) : Prop where
  found : f.get? h = some r
  fits : r.fits w t = true
  pruned : ((f.remove h).insertAll (c.rule.splitKept ⟨r, w, t, c.kerf⟩ c.leastSide)).prune = .ok g

theorem commit_eq_ok_iff {c : Cutting} :
    f.commit h w t c = (g, .ok r) ↔ Committed f h w t c g r := by
  constructor
  · intro hc
    unfold commit at hc
    split at hc
    next => cases hc
    next o ho =>
      dsimp only at hc
      split at hc
      next hfits =>
        split at hc
        next g' hp =>
          cases hc
          exact ⟨ho, hfits, hp⟩
        next => cases hc
      next => cases hc
  · intro hc
    simp only [commit, hc.found, hc.fits, if_true, hc.pruned]

namespace Committed

variable {c : Cutting}

theorem mem (hc : Committed f h w t c g r) : r ∈ f.rects := mem_rects_of_get? hc.found

/-- The rectangles after a commitment are old ones and kept parts of the one that was used. -/
theorem rects_sublist (hc : Committed f h w t c g r) :
    g.rects.Sublist
      ((f.remove h).rects ++ c.rule.splitKept ⟨r, w, t, c.kerf⟩ c.leastSide) := by
  have hs := rects_prune_sublist hc.pruned
  rwa [rects_insertAll] at hs

end Committed

/-! ### Finding a place -/

/-- What a search finds, if each of its steps keeps what was found before or finds something itself,
was found in one of the steps. -/
theorem exists_of_foldl_eq_some {α β : Type} {k : Option β → α → Option β} {P : α → β → Prop}
    (hk : ∀ best a b, k best a = some b → best = some b ∨ P a b) {as : List α} {b : β}
    (h : as.foldl k none = some b) : ∃ a ∈ as, P a b := by
  have keeps : ∀ start, as.foldl k start = some b → start = some b ∨ ∃ a ∈ as, P a b := by
    clear h
    induction as with
    | nil => exact fun _ h => .inl h
    | cons a as ih =>
      intro start h
      rcases ih _ h with h | ⟨a', ha', hfound⟩
      · exact (hk _ _ _ h).imp_right fun hfound => ⟨a, List.mem_cons_self, hfound⟩
      · exact .inr ⟨a', List.mem_cons_of_mem a ha', hfound⟩
  exact (keeps none h).resolve_left (by simp)

theorem better_eq_some {best : Option (Handle × Area)} {e b : Handle × Area}
    (h : better best e = b) : best = some b ∨ e = b := by
  cases best with
  | none => exact .inr h
  | some a =>
    simp only [better] at h
    split at h
    · exact .inr h
    · exact .inl (congrArg some h)

/-- The best fit is a free rectangle in which the piece fits, with the area left of it. -/
theorem exists_of_bestFit {left : Area} (hb : f.bestFit w t = some (h, left)) :
    ∃ r, (h, r) ∈ f.entries ∧ r.fits w t = true ∧ left = r.area - Length.times w t := by
  obtain ⟨⟨k, o⟩, ho, hfits, hfound⟩ : ∃ e ∈ f.entries,
      e.2.fits w t = true ∧ (e.1, e.2.area - Length.times w t) = (h, left) := by
    refine exists_of_foldl_eq_some
      (P := fun e b => e.2.fits w t = true ∧ (e.1, e.2.area - Length.times w t) = b) ?_ hb
    intro best e b hstep
    dsimp only at hstep
    split at hstep
    next hfits =>
      exact (better_eq_some (Option.some.inj hstep)).imp_right fun hfound => ⟨hfits, hfound⟩
    next => exact .inl hstep
  obtain ⟨rfl, rfl⟩ := Prod.mk.inj hfound
  exact ⟨o, ho, hfits, rfl⟩

theorem betterSpot_eq_some {a b : Option Spot} {s : Spot} (h : betterSpot a b = some s) :
    a = some s ∨ b = some s := by
  cases a with
  | none => exact .inr h
  | some a =>
    cases b with
    | none => exact .inl h
    | some b =>
      obtain rfl := Option.some.inj h
      split
      · exact .inr rfl
      · exact .inl rfl

theorem spotFor_orientation {o : Orientation} {s : Spot} (h : f.spotFor o = some s) :
    s.orientation = o := by
  obtain ⟨_, _, rfl⟩ := Option.map_eq_some_iff.1 h
  rfl

/-- A place for an item is the best one for one of the ways it may lie. -/
theorem exists_spotFor {i : Item} {s : Spot} (h : f.findSpot i = some s) :
    ∃ o ∈ i.orientations, f.spotFor o = some s :=
  exists_of_foldl_eq_some (P := fun o s => f.spotFor o = some s)
    (fun _ _ _ => betterSpot_eq_some) h

/-- The item lies in one of the ways it may lie. -/
theorem findSpot_orientation {i : Item} {s : Spot} (h : f.findSpot i = some s) :
    s.orientation ∈ i.orientations := by
  obtain ⟨o, ho, hspot⟩ := exists_spotFor h
  exact spotFor_orientation hspot ▸ ho

end FreeList

end Guillotine
