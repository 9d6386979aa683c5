import Guillotine.Proofs.Board.Exact
import Guillotine.Proofs.Board.Room

/-! The best fit. A piece goes where it leaves the least area; of several such free rectangles the
one inserted first wins. This says which one is found without naming a handle: it stands in the list
such that all before it leave more area, and none behind it leaves less. -/
namespace Guillotine

namespace FreeList

variable {f g : FreeList} {w t : Length} {h : Handle} {r : Rect} {left : Area}
  {before after : List (Handle × Rect)}

/-- The area that a `w` by `t` piece leaves of a free rectangle. -/
def leftOf (w t : Length) (r : Rect) : Area := r.area - Length.times w t

/-- Whether a list of free rectangles has its best fit behind `before`, in front of `after`. -/
structure FitsBest (w t : Length) (before : List (Handle × Rect)) (r : Rect)
    (after : List (Handle × Rect)) : Prop where
  fits : r.fits w t = true
  before : ∀ e ∈ before, e.2.fits w t = true → leftOf w t r < leftOf w t e.2
  after : ∀ e ∈ after, e.2.fits w t = true → leftOf w t r ≤ leftOf w t e.2

/-- A list has its best fit in one place only. -/
theorem FitsBest.unique {before' after' : List (Handle × Rect)} {h' : Handle} {r' : Rect}
    (hb : FitsBest w t before r after) (hb' : FitsBest w t before' r' after')
    (heq : before ++ (h, r) :: after = before' ++ (h', r') :: after') :
    before = before' ∧ (h, r) = (h', r') ∧ after = after' := by
  rcases List.append_eq_append_iff.1 heq with ⟨es, rfl, hes⟩ | ⟨es, rfl, hes⟩
  · cases es with
    | nil => simpa using hes
    | cons e es =>
      -- The first place is in front of the second one, and leaves more area, but not less.
      obtain ⟨rfl, rfl⟩ := List.cons.inj hes
      have hmore := hb'.before (h, r) (by simp) hb.fits
      have hless := hb.after (h', r') (by simp) hb'.fits
      exact absurd hmore (UInt64.not_lt.2 hless)
  · cases es with
    | nil => simpa [eq_comm] using hes
    | cons e es =>
      obtain ⟨rfl, rfl⟩ := List.cons.inj hes
      have hmore := hb.before (h', r') (by simp) hb'.fits
      have hless := hb'.after (h, r) (by simp) hb.fits
      exact absurd hmore (UInt64.not_lt.2 hless)

theorem bestFit_concat (es : List (Handle × Rect)) (k n : Handle) (o : Rect) :
    (⟨es ++ [(k, o)], n⟩ : FreeList).bestFit w t =
      if o.fits w t then some (better (bestFit ⟨es, n⟩ w t) (k, leftOf w t o))
      else bestFit ⟨es, n⟩ w t := by
  rw [bestFit, List.foldl_concat]
  rfl

/-- The best fit that is found is one, with the area left of it. -/
theorem exists_fitsBest (hfound : f.bestFit w t = some (h, left)) :
    ∃ before r after, f.entries = before ++ (h, r) :: after ∧ FitsBest w t before r after ∧
      left = leftOf w t r := by
  obtain ⟨entries, next⟩ := f
  dsimp only
  induction entries using List.reverseRecOn generalizing h left with
  | nil => cases hfound
  | append_singleton es e ih =>
    obtain ⟨k, o⟩ := e
    rw [bestFit_concat] at hfound
    -- The best fit so far stays the best one if the last rectangle leaves no less area.
    have hkept : bestFit ⟨es, next⟩ w t = some (h, left) →
        (o.fits w t = true → left ≤ leftOf w t o) →
        ∃ before r after, es ++ [(k, o)] = before ++ (h, r) :: after ∧
          FitsBest w t before r after ∧ left = leftOf w t r := by
      intro hsome hlast
      obtain ⟨before, r, after, rfl, hbest, rfl⟩ := ih hsome
      refine ⟨before, r, after ++ [(k, o)], by simp, ⟨hbest.fits, hbest.before, ?_⟩, rfl⟩
      rw [List.forall_mem_append, List.forall_mem_singleton]
      exact ⟨hbest.after, hlast⟩
    by_cases hfits : o.fits w t = true
    · rw [if_pos hfits, Option.some.injEq] at hfound
      cases hes : bestFit ⟨es, next⟩ w t with
      | none =>
        rw [hes] at hfound
        obtain ⟨rfl, rfl⟩ := Prod.mk.inj hfound
        refine ⟨es, o, [], rfl, ⟨hfits, fun e he hfit => ?_, by simp⟩, rfl⟩
        have hnone := bestFit_eq_none_iff.1 hes e.2 (List.mem_map_of_mem he)
        exact absurd hfit (by simp [hnone])
      | some best =>
        rw [hes, better] at hfound
        split at hfound
        next hless =>
          obtain ⟨rfl, rfl⟩ := Prod.mk.inj hfound
          obtain ⟨before, r, after, rfl, hbest, hleft⟩ := ih hes
          rw [hleft] at hless
          refine ⟨_, o, [], rfl, ⟨hfits, ?_, by simp⟩, rfl⟩
          rw [List.forall_mem_append, List.forall_mem_cons]
          exact ⟨fun e he hfit => UInt64.lt_trans hless (hbest.before e he hfit), fun _ => hless,
            fun e he hfit => UInt64.lt_of_lt_of_le hless (hbest.after e he hfit)⟩
        next hno =>
          subst hfound
          exact hkept hes fun _ => UInt64.not_lt.1 hno
    · rw [if_neg hfits] at hfound
      exact hkept hfound fun hfit => absurd hfit hfits

/-- The best fit is found where it is. -/
theorem bestFit_eq_some (hentries : f.entries = before ++ (h, r) :: after)
    (hbest : FitsBest w t before r after) : f.bestFit w t = some (h, leftOf w t r) := by
  cases hfound : f.bestFit w t with
  | none =>
    have hr : r ∈ f.rects := List.mem_map.2 ⟨(h, r), by simp [hentries], rfl⟩
    have hno := bestFit_eq_none_iff.1 hfound r hr
    exact absurd hbest.fits (by simp [hno])
  | some found =>
    obtain ⟨h', left⟩ := found
    obtain ⟨before', r', after', hentries', hbest', rfl⟩ := exists_fitsBest hfound
    obtain ⟨-, hsame, -⟩ := hbest.unique hbest' (hentries.symm.trans hentries')
    obtain ⟨rfl, rfl⟩ := Prod.mk.inj hsame
    rfl

/-! ### Taking out a rectangle -/

/-- A handle leads to its rectangle, and removing it leaves what is in front and behind. -/
theorem Named.remove_entries (hf : f.Named) (hentries : f.entries = before ++ (h, r) :: after) :
    f.get? h = some r ∧ (f.remove h).entries = before ++ after := by
  refine ⟨hf.get?_of_mem (by simp [hentries]), ?_⟩
  have hnodup := hf.nodup
  rw [hentries, List.map_append, List.map_cons, List.nodup_middle, List.nodup_cons,
    ← List.map_append] at hnodup
  have hkept : ∀ e ∈ before ++ after, decide (e.1 ≠ h) = true :=
    fun e he => decide_eq_true fun heq => hnodup.1 (List.mem_map.2 ⟨e, he, heq⟩)
  rw [List.forall_mem_append] at hkept
  show f.entries.filter _ = _
  rw [hentries, List.filter_append, List.filter_cons_of_neg (by simp),
    List.filter_eq_self.2 hkept.1, List.filter_eq_self.2 hkept.2]

/-! ### Searches that find the same -/

/-- The better ones of related places are related. -/
theorem betterSpot_rel {S : Spot → Spot → Prop} (hleft : ∀ s s', S s s' → s.left = s'.left)
    {a a' b b' : Option Spot} (ha : Option.Rel S a a') (hb : Option.Rel S b b') :
    Option.Rel S (betterSpot a b) (betterSpot a' b') := by
  cases ha with
  | none =>
    cases hb with
    | none => exact .none
    | some hb => exact .some hb
  | some ha =>
    cases hb with
    | none => exact .some ha
    | some hb =>
      simp only [betterSpot, hleft _ _ ha, hleft _ _ hb]
      split
      · exact .some hb
      · exact .some ha

/-- Where related places are found for each way an item may lie, such are found for the item. -/
theorem findSpot_rel {S : Spot → Spot → Prop} (hleft : ∀ s s', S s s' → s.left = s'.left)
    {i : Item} (h : ∀ o ∈ i.orientations, Option.Rel S (f.spotFor o) (g.spotFor o)) :
    Option.Rel S (f.findSpot i) (g.findSpot i) :=
  List.foldl_rel .none fun o ho _ _ hbest => betterSpot_rel hleft hbest (h o ho)

end FreeList

end Guillotine
