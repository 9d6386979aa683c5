import Guillotine.Proofs.Board.Handles
import Guillotine.Proofs.Board.Room
import Guillotine.Proofs.Plane.Edges
import Mathlib.Order.WellFoundedSet

/-! Pruning. An entry covers another one whose rectangle lies within its own, and of equal
rectangles the one inserted first covers the others. Pruning drops all entries that are covered,
also by entries that are dropped themselves. Nothing is lost by that: covering is a strict order and
the list is finite, so what covers a dropped entry can be followed up to an entry that is kept. -/
namespace Guillotine

/-- What fits a rectangle fits any that it lies within. -/
theorem Rect.fits_of_inside {r s : Rect} {w t : Length} (h : r.region.Inside s.region)
    (hfits : r.fits w t = true) : s.fits w t = true := by
  rw [fits_iff, UInt32.le_iff_toNat_le, UInt32.le_iff_toNat_le] at hfits ⊢
  simp only [Region.Inside, region] at h
  omega

namespace FreeList

variable {f g : FreeList} {h : Handle} {r : Rect} {d e x : Handle × Rect}

/-! ### Covering -/

/-- Whether the first of two entries covers the second one. -/
def Covers (e x : Handle × Rect) : Prop :=
  x.2.region.Inside e.2.region ∧ (e.2 ≠ x.2 ∨ e.1 < x.1)

instance (e x : Handle × Rect) : Decidable (Covers e x) := inferInstanceAs (Decidable (_ ∧ _))

theorem Covers.trans (hde : Covers d e) (hex : Covers e x) : Covers d x := by
  obtain ⟨hin, hfirst⟩ := hde
  obtain ⟨kin, kfirst⟩ := hex
  refine ⟨kin.trans hin, or_iff_not_imp_left.2 fun hsame => ?_⟩
  -- The outer rectangles are the same, so the one between them is, and the handles descend.
  rw [not_not] at hsame
  rw [hsame] at hin
  have hmid : e.2 = x.2 := Rect.region_injective (hin.antisymm kin)
  have hde : d.1 < e.1 := hfirst.resolve_left (not_not.2 (hsame.trans hmid.symm))
  exact Nat.lt_trans hde (kfirst.resolve_left (not_not.2 hmid))

instance : IsStrictOrder (Handle × Rect) Covers where
  irrefl _ h := h.2.elim (fun hne => hne rfl) (Nat.lt_irrefl _)
  trans _ _ _ := Covers.trans

/-- Whether no entry covers an entry of a free list. -/
def Keeps (f : FreeList) (x : Handle × Rect) : Prop := ∀ e ∈ f.entries, ¬ Covers e x

instance (f : FreeList) (x : Handle × Rect) : Decidable (f.Keeps x) :=
  inferInstanceAs (Decidable (∀ e ∈ f.entries, ¬ Covers e x))

/-- What covers an entry can be followed up to an entry that nothing covers. -/
theorem exists_keeps (hx : x ∈ f.entries) :
    ∃ e ∈ f.entries, f.Keeps e ∧ (e = x ∨ Covers e x) := by
  have hfinite : {e | e ∈ f.entries}.Finite := List.finite_toSet f.entries
  have hwell : {e | e ∈ f.entries}.WellFoundedOn Covers := hfinite.wellFoundedOn
  refine hwell.induction (P := fun x => ∃ e ∈ f.entries, f.Keeps e ∧ (e = x ∨ Covers e x)) hx ?_
  intro x hx ih
  by_cases hkeeps : f.Keeps x
  · exact ⟨x, hx, hkeeps, .inl rfl⟩
  · simp only [Keeps, not_forall, not_not] at hkeeps
    obtain ⟨d, hd, hdx⟩ := hkeeps
    obtain ⟨e, he, hkept, rfl | hed⟩ := ih d hd hdx
    · exact ⟨e, he, hkept, .inr hdx⟩
    · exact ⟨e, he, hkept, .inr (hed.trans hdx)⟩

/-! ### The kept entries -/

/-- Where no handle is there twice and all far edges are lengths, an entry is found to be covered
just if another one covers it. -/
theorem isCovered_eq {es : List (Handle × Rect)} (hr : r.HasEdges)
    (hes : ∀ e ∈ es, e.2.HasEdges) (hnamed : ∀ e ∈ es, e.1 = h → e.2 = r) :
    isCovered h r es = .ok (decide (∃ e ∈ es, Covers e (h, r))) := by
  induction es with
  | nil => rfl
  | cons e es ih =>
    rw [List.forall_mem_cons] at hes hnamed
    rw [isCovered, ih hes.2 hnamed.2, Rect.contains_eq hes.1 hr]
    simp only [List.exists_mem_cons_iff]
    by_cases hk : e.1 = h
    · have hnot : ¬ Covers e (h, r) := fun hcovers =>
        hcovers.2.elim (fun hne => hne (hnamed.1 hk)) fun hlt => Nat.ne_of_lt hlt hk
      rw [if_pos hk]
      simp only [hnot, false_or]
    · rw [if_neg hk]
      have hcovers :
          (decide (r.region.Inside e.2.region) && (decide (e.2 ≠ r) || decide (e.1 < h))) =
          decide (Covers e (h, r)) := by
        rw [Bool.eq_iff_iff, decide_eq_true_iff]
        simp only [Covers, Bool.and_eq_true, Bool.or_eq_true, decide_eq_true_eq]
      show (if (decide _ && (decide _ || decide _)) = true then Except.ok true
        else Except.ok (decide _)) = _
      rw [hcovers]
      by_cases he : Covers e (h, r)
      · rw [if_pos (decide_eq_true he), decide_eq_true (.inl he)]
      · rw [if_neg (by simpa using he)]
        simp only [he, false_or]

theorem uncovered_eq {es : List (Handle × Rect)} (hf : f.Named)
    (hedges : ∀ e ∈ f.entries, e.2.HasEdges) (hes : ∀ e ∈ es, e ∈ f.entries) :
    uncovered f.entries es = .ok (es.filter fun x => decide (f.Keeps x)) := by
  induction es with
  | nil => rfl
  | cons x es ih =>
    rw [List.forall_mem_cons] at hes
    have hnamed : ∀ e ∈ f.entries, e.1 = x.1 → e.2 = x.2 := fun e he hkey =>
      congrArg Prod.snd (List.inj_on_of_nodup_map hf.nodup he hes.1 hkey)
    rw [uncovered, isCovered_eq (hedges x hes.1) hedges hnamed, ih hes.2]
    have hkeeps : f.Keeps x ↔ ¬ ∃ e ∈ f.entries, Covers e x := by
      simp only [Keeps, not_exists, not_and]
    show Except.ok (if decide (∃ e ∈ f.entries, Covers e x) = true then _ else _) = _
    rw [List.filter_cons]
    by_cases hx : f.Keeps x
    · rw [if_neg (by simpa using hkeeps.1 hx), if_pos (decide_eq_true hx)]
    · rw [if_pos (by simpa using not_not.1 (hkeeps.not.1 hx)), if_neg (by simpa using hx)]

/-- The entries that nothing covers. -/
def largest (f : FreeList) : FreeList :=
  { f with entries := f.entries.filter fun x => decide (f.Keeps x) }

theorem mem_largest : x ∈ f.largest.entries ↔ x ∈ f.entries ∧ f.Keeps x := by
  simp [largest, List.mem_filter]

theorem largest_sublist (f : FreeList) : f.largest.entries.Sublist f.entries := List.filter_sublist

theorem prune_eq (hf : f.Named) (hedges : ∀ r ∈ f.rects, r.HasEdges) :
    f.prune = .ok f.largest := by
  have hentries : ∀ e ∈ f.entries, e.2.HasEdges := fun e he => hedges _ (List.mem_map_of_mem he)
  rw [prune, uncovered_eq hf hentries fun _ => id]
  rfl

/-! ### What pruning keeps -/

/-- Whether a free list is what is left of another one if just its largest rectangles are kept. -/
structure KeepsLargest (f g : FreeList) : Prop where
  /-- What is kept keeps its handle, its rectangle and its place in the order. -/
  sublist : g.entries.Sublist f.entries
  next : g.next = f.next
  /-- No kept rectangle lies within another one. -/
  spread : ∀ d ∈ g.entries, ∀ e ∈ g.entries, d.2.region.Inside e.2.region → d = e
  /-- Every dropped rectangle lies within a kept one. -/
  within : ∀ d ∈ f.entries, d ∉ g.entries → ∃ e ∈ g.entries, d.2.region.Inside e.2.region
  /-- A rectangle that lies within no other one is kept under the first of its handles, and only
  there. -/
  first : ∀ h r, (h, r) ∈ g.entries ↔ (h, r) ∈ f.entries ∧
    (∀ o ∈ f.rects, r.region.Inside o.region → o = r) ∧ ∀ k, (k, r) ∈ f.entries → h ≤ k
  /-- A piece fits somewhere just if it did before. -/
  room : ∀ w t, (g.bestFit w t).isSome = (f.bestFit w t).isSome
  /-- Pruning again drops nothing. -/
  again : g.prune = .ok g

/-- A kept rectangle lies within no other one, and comes first among those that are equal. -/
theorem Keeps.of_inside (hd : f.Keeps d) (he : e ∈ f.entries)
    (hin : d.2.region.Inside e.2.region) : e.2 = d.2 ∧ d.1 ≤ e.1 := by
  have hnot := hd e he
  simp only [Covers, hin, true_and, not_or, not_not, Nat.not_lt] at hnot
  exact hnot

theorem mem_largest_iff : (h, r) ∈ f.largest.entries ↔ (h, r) ∈ f.entries ∧
    (∀ o ∈ f.rects, r.region.Inside o.region → o = r) ∧ ∀ k, (k, r) ∈ f.entries → h ≤ k := by
  rw [mem_largest]
  refine and_congr_right fun _ => ⟨fun hkept => ⟨fun o ho hin => ?_, fun k hk => ?_⟩, ?_⟩
  · obtain ⟨e, he, rfl⟩ := List.mem_map.1 ho
    exact (hkept.of_inside he hin).1
  · exact (hkept.of_inside hk (.refl _)).2
  · rintro ⟨hwithin, hfirst⟩ ⟨k, o⟩ he ⟨hin, hbefore⟩
    obtain rfl : o = r := hwithin o (List.mem_map_of_mem he) hin
    exact absurd (hbefore.resolve_left (not_not.2 rfl)) (Nat.not_lt.2 (hfirst k he))

/-- What a dropped entry lay within is kept. -/
theorem exists_largest (hd : d ∈ f.entries) :
    ∃ e ∈ f.largest.entries, d.2.region.Inside e.2.region := by
  obtain ⟨e, he, hkept, rfl | hcovers⟩ := exists_keeps hd
  · exact ⟨e, mem_largest.2 ⟨he, hkept⟩, .refl _⟩
  · exact ⟨e, mem_largest.2 ⟨he, hkept⟩, hcovers.1⟩

theorem isSome_bestFit_iff {w t : Length} :
    (f.bestFit w t).isSome = true ↔ ∃ e ∈ f.entries, e.2.fits w t = true := by
  rw [← not_iff_not, Bool.not_eq_true, Option.isSome_eq_false_iff, Option.isNone_iff_eq_none,
    bestFit_eq_none_iff, rects, List.forall_mem_map]
  simp only [not_exists, not_and, Bool.not_eq_true]

/-- A piece fits a rectangle just if it fits one that is kept. -/
theorem isSome_bestFit_largest (f : FreeList) (w t : Length) :
    (f.largest.bestFit w t).isSome = (f.bestFit w t).isSome := by
  rw [Bool.eq_iff_iff, isSome_bestFit_iff, isSome_bestFit_iff]
  constructor
  · rintro ⟨e, he, hfits⟩
    exact ⟨e, f.largest_sublist.subset he, hfits⟩
  · rintro ⟨d, hd, hfits⟩
    obtain ⟨e, he, hin⟩ := exists_largest hd
    exact ⟨e, he, Rect.fits_of_inside hin hfits⟩

theorem largest_largest (f : FreeList) : f.largest.largest = f.largest := by
  have hkept : ∀ x ∈ f.largest.entries, decide (f.largest.Keeps x) = true := fun x hx =>
    decide_eq_true fun e he => (mem_largest.1 hx).2 e (f.largest_sublist.subset he)
  show ({ f.largest with entries := f.largest.entries.filter _ } : FreeList) = _
  rw [List.filter_eq_self.2 hkept]

/-- Whatever free list the operations lead to, pruning it keeps its largest rectangles, if their far
edges are lengths. -/
theorem prune_keepsLargest (hf : f.Reached) (hedges : ∀ r ∈ f.rects, r.HasEdges) :
    ∃ g, f.prune = .ok g ∧ f.KeepsLargest g := by
  have hnamed := hf.inTurn.named
  have hagain : f.largest.prune = .ok f.largest := by
    rw [prune_eq (hnamed.sublist f.largest_sublist rfl) fun r hr =>
      hedges r ((f.largest_sublist.map Prod.snd).subset hr), largest_largest]
  refine ⟨f.largest, prune_eq hnamed hedges, f.largest_sublist, rfl, fun d hd e he hin => ?_,
    fun d hd _ => exists_largest hd, fun _ _ => mem_largest_iff, f.isSome_bestFit_largest, hagain⟩
  obtain ⟨hd, hdkept⟩ := mem_largest.1 hd
  obtain ⟨he, hekept⟩ := mem_largest.1 he
  obtain ⟨hsame, hle⟩ := hdkept.of_inside he hin
  have hge := (hekept.of_inside hd (hsame ▸ .refl _)).2
  exact Prod.ext (Nat.le_antisymm hle hge) hsame.symm

/-- Free rectangles that lie within others, one of these in turn, and two that are the same. -/
def stack : FreeList :=
  (single ⟨0, 0, 100, 100⟩).insertAll
    [⟨10, 10, 20, 20⟩, ⟨200, 0, 10, 10⟩, ⟨200, 0, 10, 10⟩, ⟨10, 10, 5, 0⟩, ⟨0, 0, 100, 101⟩]

/-- The last rectangle of the stack covers the first one, which covers two others. -/
theorem prune_keepsLargest_stack : stack.Reached ∧ (∀ r ∈ stack.rects, r.HasEdges) ∧
    stack.prune = .ok ⟨[(2, ⟨200, 0, 10, 10⟩), (5, ⟨0, 0, 100, 101⟩)], 6⟩ ∧
    stack.KeepsLargest ⟨[(2, ⟨200, 0, 10, 10⟩), (5, ⟨0, 0, 100, 101⟩)], 6⟩ := by
  have hreached : stack.Reached := (Reached.single _).insertAll _
  have hedges : ∀ r ∈ stack.rects, r.HasEdges := by
    unfold Rect.HasEdges
    decide
  have hpruned : stack.prune = .ok ⟨[(2, ⟨200, 0, 10, 10⟩), (5, ⟨0, 0, 100, 101⟩)], 6⟩ := rfl
  obtain ⟨g, hg, hkeeps⟩ := prune_keepsLargest hreached hedges
  obtain rfl := Except.ok.inj (hg.symm.trans hpruned)
  exact ⟨hreached, hedges, hg, hkeeps⟩

end FreeList

end Guillotine
