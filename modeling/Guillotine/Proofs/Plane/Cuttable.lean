import Guillotine.Plane.Rect
import Guillotine.Stock.Rejection
import Mathlib.Data.List.Perm.Subperm

/-! Regions of the plane with exact coordinates, and what a guillotine can cut out of them. A cut
runs from edge to edge of a region and destroys a strip as wide as the blade. A list of items is
cuttable out of a region if cuts can go on until each item is a region of its own. Items that are
cuttable lie inside the region and keep a blade's width from each other. -/
namespace Guillotine

/-- A rectangle with exact coordinates. -/
structure Region where
  x : Nat
  y : Nat
  width : Nat
  height : Nat
deriving DecidableEq

/-- A rectangle as a region. -/
def Rect.region (r : Rect) : Region := ⟨r.x.toNat, r.y.toNat, r.width.toNat, r.height.toNat⟩

namespace Region

/-- Whether `inner` lies within `outer`; edges may coincide. -/
def Inside (inner outer : Region) : Prop :=
  outer.x ≤ inner.x ∧ outer.y ≤ inner.y ∧
    inner.x + inner.width ≤ outer.x + outer.width ∧
    inner.y + inner.height ≤ outer.y + outer.height

/-- Whether two regions are at least `gap` apart along one of the axes. -/
def Apart (gap : Nat) (a b : Region) : Prop :=
  a.x + a.width + gap ≤ b.x ∨ b.x + b.width + gap ≤ a.x ∨
    a.y + a.height + gap ≤ b.y ∨ b.y + b.height + gap ≤ a.y

theorem Inside.refl (r : Region) : r.Inside r := by
  simp [Inside]

theorem Inside.trans {a b c : Region} (hab : a.Inside b) (hbc : b.Inside c) : a.Inside c := by
  unfold Inside at *
  omega

theorem Inside.antisymm {a b : Region} (hab : a.Inside b) (hba : b.Inside a) : a = b := by
  obtain ⟨x, y, width, height⟩ := a
  unfold Inside at *
  simp only at *
  obtain ⟨rfl, rfl⟩ : x = b.x ∧ y = b.y := by omega
  congr <;> omega

theorem Apart.symm {gap : Nat} {a b : Region} (h : Apart gap a b) : Apart gap b a := by
  unfold Apart at *
  omega

/-- What lies within regions that are apart is apart. -/
theorem Apart.inside {gap : Nat} {a b a' b' : Region} (h : Apart gap a b) (ha : a'.Inside a)
    (hb : b'.Inside b) : Apart gap a' b' := by
  unfold Apart Inside at *
  omega

/-! ### Cuts -/

/-- The extent of a region along an axis. -/
def extent (r : Region) : Axis → Nat
  | .horizontal => r.width
  | .vertical => r.height

/-- The part of a region before a cut at distance `d` along an axis. -/
def before (r : Region) (d : Nat) : Axis → Region
  | .horizontal => { r with width := d }
  | .vertical => { r with height := d }

/-- The part of a region from distance `d` along an axis on. -/
def beyond (r : Region) (d : Nat) : Axis → Region
  | .horizontal => { r with x := r.x + d, width := r.width - d }
  | .vertical => { r with y := r.y + d, height := r.height - d }

theorem before_inside {r : Region} {d : Nat} {a : Axis} (h : d ≤ r.extent a) :
    (r.before d a).Inside r := by
  cases a <;> simp only [extent] at h <;> simp only [Inside, before] <;> omega

theorem beyond_inside {r : Region} {d : Nat} {a : Axis} (h : d ≤ r.extent a) :
    (r.beyond d a).Inside r := by
  cases a <;> simp only [extent] at h <;> simp only [Inside, beyond] <;> omega

theorem before_apart_beyond (r : Region) (d gap : Nat) (a : Axis) :
    Apart gap (r.before d a) (r.beyond (d + gap) a) := by
  cases a <;> simp only [Apart, before, beyond] <;> omega

end Region

open Region

/-- What a blade of width `kerf` can cut out of a region. -/
inductive Cuttable (kerf : Nat) : Region → List Region → Prop
  /-- Nothing is left wherever nothing is wanted. -/
  | nothing (r : Region) : Cuttable kerf r []
  | whole (r : Region) : Cuttable kerf r [r]
  /-- A cut across `r` at distance `d` along an axis. What the blade leaves beyond itself is a
  region only if it has an extent; else the whole rest beyond the line is lost. -/
  | cut {r : Region} {items near far : List Region} (a : Axis) (d : Nat)
    (within : 0 < d ∧ d < r.extent a) (share : items.Perm (near ++ far))
    (rest : far = [] ∨ d + kerf < r.extent a) (hnear : Cuttable kerf (r.before d a) near)
    (hfar : Cuttable kerf (r.beyond (d + kerf) a) far) : Cuttable kerf r items

namespace Cuttable

variable {kerf : Nat} {r s : Region} {items items' others : List Region}

/-- Nothing can be cut out of a region that does not lie inside it. -/
theorem inside (h : Cuttable kerf r items) : ∀ i ∈ items, i.Inside r := by
  induction h with
  | nothing => simp
  | whole r =>
    intro i hi
    rw [List.mem_singleton.1 hi]
    exact Inside.refl r
  | cut a d within share rest _ _ ihnear ihfar =>
    intro i hi
    rcases List.mem_append.1 (share.mem_iff.1 hi) with hi | hi
    · exact (ihnear i hi).trans (before_inside (Nat.le_of_lt within.2))
    · rcases rest with rfl | hrest
      · cases hi
      · exact (ihfar i hi).trans (beyond_inside (Nat.le_of_lt hrest))

/-- The blade has gone between any two items. -/
theorem pairwise_apart (h : Cuttable kerf r items) : items.Pairwise (Apart kerf) := by
  induction h with
  | nothing => exact List.Pairwise.nil
  | whole r => exact List.pairwise_singleton _ r
  | @cut r _ near far a d within share rest hnear hfar ihnear ihfar =>
    rw [share.pairwise_iff Apart.symm, List.pairwise_append]
    refine ⟨ihnear, ihfar, fun i hi j hj => ?_⟩
    exact (before_apart_beyond r d kerf a).inside (hnear.inside i hi) (hfar.inside j hj)

theorem perm (h : Cuttable kerf r items) (hp : items.Perm items') : Cuttable kerf r items' := by
  cases h with
  | nothing =>
    rw [List.nil_perm.1 hp]
    exact nothing r
  | whole =>
    rw [← List.singleton_perm.1 hp]
    exact whole r
  | cut a d within share rest hnear hfar =>
    exact cut a d within (hp.symm.trans share) rest hnear hfar

/-- Fewer items can be cut out of the same region. -/
theorem sublist (h : Cuttable kerf r items) (hs : items'.Sublist items) :
    Cuttable kerf r items' := by
  induction h generalizing items' with
  | nothing =>
    rw [List.sublist_nil.1 hs]
    exact nothing _
  | whole r =>
    rcases List.sublist_singleton.1 hs with rfl | rfl
    · exact nothing r
    · exact whole r
  | cut a d within share rest _ _ ihnear ihfar =>
    obtain ⟨l, hl, hs'⟩ := (List.Subperm.trans hs.subperm share.subperm)
    obtain ⟨near', far', rfl, hn, hf⟩ := List.sublist_append_iff.1 hs'
    refine cut a d within hl.symm (rest.imp_left ?_) (ihnear hn) (ihfar hf)
    rintro rfl
    exact List.sublist_nil.1 hf

theorem subperm (h : Cuttable kerf r items) (hs : items'.Subperm items) :
    Cuttable kerf r items' := by
  obtain ⟨l, hl, hs⟩ := hs
  exact (h.sublist hs).perm hl

/-- A cut takes off what lies before it; what lies beyond the blade may be kept as one item. -/
theorem cutOff {near : List Region} {far : Option Region} (a : Axis) (d : Nat)
    (hd : 0 < d ∧ d ≤ r.extent a) (hnear : Cuttable kerf (r.before d a) near)
    (hfar : ∀ p ∈ far, d + kerf < r.extent a ∧ p = r.beyond (d + kerf) a) :
    Cuttable kerf r (near ++ far.toList) := by
  rcases Nat.lt_or_eq_of_le hd.2 with hlt | heq
  · cases far with
    | none => exact cut a d ⟨hd.1, hlt⟩ (List.Perm.refl _) (.inl rfl) hnear (nothing _)
    | some p =>
      obtain ⟨hrest, rfl⟩ := hfar p rfl
      exact cut a d ⟨hd.1, hlt⟩ (List.Perm.refl _) (.inr hrest) hnear (whole _)
  · have hr : r.before d a = r := by
      cases a <;> simp [heq, before, extent]
    cases far with
    | none => simpa [hr] using hnear
    | some p =>
      obtain ⟨hrest, -⟩ := hfar p rfl
      omega

/-- An item that was cut out can itself be cut up further. -/
theorem refine (h : Cuttable kerf r items) (hs : Cuttable kerf s others)
    {rest : List Region} (hp : items.Perm (s :: rest)) : Cuttable kerf r (others ++ rest) := by
  induction h generalizing rest with
  | nothing => cases (List.nil_perm.1 hp)
  | whole r =>
    obtain ⟨rfl, rfl⟩ := List.cons.inj (List.singleton_perm.1 hp)
    simpa using hs
  | @cut r items near far a d within share hrest hnear hfar ihnear ihfar =>
    have hmem : s ∈ near ++ far := share.mem_iff.1 (hp.mem_iff.2 List.mem_cons_self)
    rcases List.mem_append.1 hmem with hs' | hs'
    · have hn := List.perm_cons_erase hs'
      refine cut a d within ?_ hrest (ihnear hn) hfar
      rw [List.append_assoc]
      exact (((hp.symm.trans share).trans (hn.append_right far)).cons_inv).append_left others
    · have hf := List.perm_cons_erase hs'
      refine cut a d within ?_ (.inr (hrest.resolve_left ?_)) hnear (ihfar hf)
      · have h1 : (near ++ far).Perm (s :: (near ++ far.erase s)) :=
          (hf.append_left near).trans List.perm_middle
        have h2 : rest.Perm (near ++ far.erase s) := ((hp.symm.trans share).trans h1).cons_inv
        exact (h2.append_left others).trans (List.perm_append_comm_assoc ..)
      · rintro rfl
        cases hs'

end Cuttable

end Guillotine
