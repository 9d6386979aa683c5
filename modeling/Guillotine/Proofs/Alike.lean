import Guillotine.Plan.Packer
import Mathlib.Data.List.Forall2

/-! Computations that run alike. Two computations that can fail agree if they fail in the same way
or end in related values. Two computations with a journal are alike if, besides, they leave notices
of the same levels of which the same ones fault, whatever their texts say. This is kept by
composition, so that two runs of a program on related inputs are compared function by function. -/
namespace Guillotine

open List (Forall₂)

variable {α β γ δ : Type}

/-! ### Lists of related items -/

section Lists

variable {R : α → β → Prop} {as : List α} {bs : List β}

/-- Lists of related items are sorted alike: the pairs of related items are sorted. -/
theorem forall₂_mergeSort {le : α → α → Bool} {le' : β → β → Bool}
    (hle : ∀ a a' b b', R a b → R a' b' → le a a' = le' b b') (h : Forall₂ R as bs) :
    Forall₂ R (as.mergeSort le) (bs.mergeSort le') := by
  have hlength : as.length = bs.length := h.length_eq
  have hrel : ∀ z ∈ as.zip bs, R z.1 z.2 := fun z hz => List.forall₂_zip h hz
  have hfst := List.map_mergeSort (l := as.zip bs) (f := Prod.fst) (s := le)
    (r := fun y z => le y.1 z.1) fun _ _ _ _ => rfl
  have hsnd := List.map_mergeSort (l := as.zip bs) (f := Prod.snd) (s := le')
    (r := fun y z => le y.1 z.1) fun y hy z hz => hle _ _ _ _ (hrel y hy) (hrel z hz)
  rw [List.map_fst_zip (Nat.le_of_eq hlength)] at hfst
  rw [List.map_snd_zip (Nat.le_of_eq hlength.symm)] at hsnd
  rw [← hfst, ← hsnd, List.forall₂_map_left_iff, List.forall₂_map_right_iff, List.forall₂_same]
  exact fun z hz => hrel z (List.mem_mergeSort.1 hz)

theorem map_eq_of_forall₂ {f : α → γ} {g : β → γ} (hfg : ∀ a b, R a b → f a = g b)
    (h : Forall₂ R as bs) : as.map f = bs.map g := by
  induction h with
  | nil => rfl
  | cons hab _ ih => rw [List.map_cons, List.map_cons, hfg _ _ hab, ih]

theorem forall₂_of_map_eq {f : α → γ} {g : β → γ} (h : as.map f = bs.map g) :
    Forall₂ (fun a b => f a = g b) as bs := by
  have hmaps : Forall₂ Eq (as.map f) (bs.map g) := by rw [List.forall₂_eq_eq_eq, h]
  rwa [List.forall₂_map_left_iff, List.forall₂_map_right_iff] at hmaps

theorem forall₂_mapIdx {S : γ → δ → Prop} {f : Nat → α → γ} {g : Nat → β → δ}
    (hfg : ∀ i a b, R a b → S (f i a) (g i b)) (h : Forall₂ R as bs) :
    Forall₂ S (as.mapIdx f) (bs.mapIdx g) := by
  induction h generalizing f g with
  | nil => exact .nil
  | cons hab _ ih =>
    rw [List.mapIdx_cons, List.mapIdx_cons]
    exact .cons (hfg 0 _ _ hab) (ih fun i => hfg (i + 1))

theorem isEmpty_eq_of_forall₂ (h : Forall₂ R as bs) : as.isEmpty = bs.isEmpty := by
  cases h <;> rfl

theorem forall₂_filter {p : α → Bool} {q : β → Bool} (hpq : ∀ a b, R a b → p a = q b)
    (h : Forall₂ R as bs) : Forall₂ R (as.filter p) (bs.filter q) := by
  apply List.rel_filter _ h
  intro a b hab
  show p a = true ↔ q b = true
  rw [hpq a b hab]

theorem forall_of_forall₂ {P : α → Prop} {Q : β → Prop} (hPQ : ∀ a b, R a b → P a → Q b)
    (h : Forall₂ R as bs) (hall : ∀ a ∈ as, P a) : ∀ b ∈ bs, Q b := by
  induction h with
  | nil => simp
  | cons hab _ ih =>
    rw [List.forall_mem_cons] at hall ⊢
    exact ⟨hPQ _ _ hab hall.1, ih hall.2⟩

theorem pairwise_of_forall₂ {S : α → α → Prop} {T : β → β → Prop}
    (hST : ∀ a b a' b', R a b → R a' b' → S a a' → T b b') (h : Forall₂ R as bs)
    (hall : as.Pairwise S) : bs.Pairwise T := by
  induction h with
  | nil => exact .nil
  | cons hab hrest ih =>
    rw [List.pairwise_cons] at hall ⊢
    exact ⟨forall_of_forall₂ (fun _ _ hab' => hST _ _ _ _ hab hab') hrest hall.1, ih hall.2⟩

end Lists

/-! ### Outcomes -/

/-- Two outcomes are the same failure, or related results. -/
inductive Agree {ε : Type} (R : α → β → Prop) : Except ε α → Except ε β → Prop
  | ok {a : α} {b : β} (h : R a b) : Agree R (.ok a) (.ok b)
  | error (e : ε) : Agree R (.error e) (.error e)

namespace Agree

variable {ε : Type} {R : α → β → Prop} {S : γ → δ → Prop} {x : Except ε α} {y : Except ε β}

theorem mono {R' : α → β → Prop} (h : Agree R x y) (hR : ∀ a b, R a b → R' a b) :
    Agree R' x y := by
  cases h with
  | ok h => exact .ok (hR _ _ h)
  | error e => exact .error e

theorem refl {R : α → α → Prop} (hR : ∀ a, R a a) (x : Except ε α) : Agree R x x := by
  cases x with
  | ok a => exact .ok (hR a)
  | error e => exact .error e

theorem of_eq {x y : Except ε α} (h : x = y) : Agree Eq x y := by
  subst h
  exact refl (fun _ => rfl) x

theorem bind {f : α → Except ε γ} {g : β → Except ε δ} (h : Agree R x y)
    (hf : ∀ a b, R a b → Agree S (f a) (g b)) : Agree S (x >>= f) (y >>= g) := by
  cases h with
  | ok h => exact hf _ _ h
  | error e => exact .error e

theorem map {f : α → γ} {g : β → δ} (h : Agree R x y) (hf : ∀ a b, R a b → S (f a) (g b)) :
    Agree S (x.map f) (y.map g) := by
  cases h with
  | ok h => exact .ok (hf _ _ h)
  | error e => exact .error e

theorem mapM {f : α → Except ε γ} {g : β → Except ε δ} {as : List α} {bs : List β}
    (h : Forall₂ R as bs) (hf : ∀ a b, R a b → Agree S (f a) (g b)) :
    Agree (Forall₂ S) (as.mapM f) (bs.mapM g) := by
  induction h with
  | nil => exact .ok .nil
  | cons hab _ ih =>
    rw [List.mapM_cons, List.mapM_cons]
    apply (hf _ _ hab).bind
    intro c d hcd
    apply ih.bind
    intro cs ds hcds
    exact .ok (.cons hcd hcds)

end Agree

/-! ### Computations with a journal -/

/-- Two notices have the same level, and the same fault if their texts fault. -/
structure Notice.Alike (n m : Notice) : Prop where
  level : n.level = m.level
  text : Agree (fun _ _ => True) (n.text ()) (m.text ())

/-- Two computations leave notices that fault alike, and agree on their values. -/
structure Logged.Alike (R : α → β → Prop) (x : Logged α) (y : Logged β) : Prop where
  notices : Forall₂ Notice.Alike x.notices y.notices
  value : Agree R x.value y.value

namespace Logged

variable {R : α → β → Prop} {S : γ → δ → Prop} {x : Logged α} {y : Logged β}

namespace Alike

theorem refl {R : α → α → Prop} (hR : ∀ a, R a a) (x : Logged α) : Alike R x x :=
  ⟨List.forall₂_same.2 fun n _ => ⟨rfl, .refl (fun _ => trivial) (n.text ())⟩, .refl hR x.value⟩

theorem pure {a : α} {b : β} (h : R a b) : Alike R (pure a) (pure b) := ⟨.nil, .ok h⟩

theorem fault (e : Fault) : Alike R (fault e) (fault e) := ⟨.nil, .error e⟩

theorem lift {c : Checked α} {d : Checked β} (h : Agree R c d) :
    Alike R (liftM c : Logged α) (liftM d : Logged β) :=
  ⟨.nil, h⟩

theorem noteChecked {l : Level} {t u : Unit → Checked String}
    (h : Agree (fun _ _ => True) (t ()) (u ())) :
    Alike (fun _ _ => True) (noteChecked l t) (noteChecked l u) :=
  ⟨.cons ⟨rfl, h⟩ .nil, .ok trivial⟩

theorem note {l : Level} {t u : Unit → String} :
    Alike (fun _ _ => True) (note l t) (note l u) :=
  noteChecked (.ok trivial)

theorem bind {f : α → Logged γ} {g : β → Logged δ} (h : Alike R x y)
    (hf : ∀ a b, R a b → Alike S (f a) (g b)) : Alike S (x >>= f) (y >>= g) := by
  obtain ⟨ns, v⟩ := x
  obtain ⟨ms, w⟩ := y
  obtain ⟨hnotices, hvalue⟩ := h
  cases hvalue with
  | ok h => exact ⟨List.rel_append hnotices (hf _ _ h).notices, (hf _ _ h).value⟩
  | error e => exact ⟨hnotices, .error e⟩

end Alike

theorem recordNotices_alike {ns ms : List Notice} (h : Forall₂ Notice.Alike ns ms)
    (v : Verbosity) : (recordNotices v ns).2 = (recordNotices v ms).2 := by
  induction h with
  | nil => rfl
  | @cons n m ns ms hnm _ ih =>
    obtain ⟨hlevel, htext⟩ := hnm
    simp only [recordNotices, hlevel]
    generalize n.text () = t at htext
    generalize m.text () = u at htext
    split
    · cases htext with
      | ok _ => exact ih
      | error e => rfl
    · exact ih

/-- Whoever watches two computations that are alike sees outcomes that agree. -/
theorem Alike.record (h : Alike R x y) (v : Verbosity) :
    Agree R (x.record v).2 (y.record v).2 := by
  have hnotices := recordNotices_alike h.notices v
  unfold Logged.record
  generalize recordNotices v x.notices = p at *
  generalize recordNotices v y.notices = q at *
  obtain ⟨ls, f⟩ := p
  obtain ⟨ks, g⟩ := q
  cases hnotices
  cases f with
  | none => exact h.value
  | some f => exact .error f

end Logged

/-! ### Steps of packing -/

/-- Two steps of packing run alike and turn the demand down alike. -/
def Packing.Alike (R : α → β → Prop) (x : Packing α) (y : Packing β) : Prop :=
  Logged.Alike (Agree R) x.run y.run

namespace Packing.Alike

variable {R : α → β → Prop} {S : γ → δ → Prop} {x : Packing α} {y : Packing β}

theorem pure {a : α} {b : β} (h : R a b) : Alike R (pure a) (pure b) :=
  Logged.Alike.pure (.ok h)

theorem fault (e : Fault) : Alike R (Logged.fault e : Packing α) (Logged.fault e : Packing β) :=
  Logged.Alike.fault e

theorem ofExcept {c : Except Rejection α} {d : Except Rejection β} (h : Agree R c d) :
    Alike R (ExceptT.mk (Pure.pure c)) (ExceptT.mk (Pure.pure d)) :=
  Logged.Alike.pure h

theorem lift {x : Logged α} {y : Logged β} (h : x.Alike R y) :
    Alike R (liftM x) (liftM y) :=
  h.bind fun _ _ h => .pure (.ok h)

theorem note {l : Level} {t u : Unit → String} :
    Alike (fun _ _ => True) (liftM (Logged.note l t)) (liftM (Logged.note l u)) :=
  lift .note

theorem bind {f : α → Packing γ} {g : β → Packing δ} (h : Alike R x y)
    (hf : ∀ a b, R a b → Alike S (f a) (g b)) : Alike S (x >>= f) (y >>= g) := by
  apply Logged.Alike.bind h
  intro r s hrs
  cases hrs with
  | ok h => exact hf _ _ h
  | error e => exact .pure (.error e)

theorem notes {l : Level} {t : α → Unit → String} {u : β → Unit → String} {as : List α}
    {bs : List β} (h : Forall₂ R as bs) :
    Alike (fun _ _ => True) (as.forM fun a => (liftM (Logged.note l (t a)) : Packing Unit))
      (bs.forM fun b => (liftM (Logged.note l (u b)) : Packing Unit)) := by
  induction h with
  | nil => exact pure trivial
  | cons _ _ ih => exact note.bind fun _ _ _ => ih

end Packing.Alike

end Guillotine
