import Guillotine.Proofs.Runs

/-! Runs in step. Two runs on states of two kinds go in step if they lead from related states to
related states and show the same value. What is more, each value satisfies a condition, so that what
follows has to stay in step for such values only. A run that keeps a condition on its state goes in
step with itself. Where the runs change how their states are related, they carry one relation to
another; going in step is carrying a relation to itself. -/
namespace Guillotine

namespace Run

variable {σ τ α β ε : Type}

/-- Whether two runs from related states reach related states and the same value or fault, where any
value satisfies a condition. -/
def InStep (R : σ → τ → Prop) (Q : α → Prop) (x : Run σ α) (y : Run τ α) : Prop :=
  ∀ v m n, R m n → R (x v m).state (y v n).state ∧ (x v m).value = (y v n).value ∧
    ∀ a, (x v m).value = .ok a → Q a

/-- Whether two runs from states with one relation reach states with another one, and the same value
or fault, where any value satisfies a condition. -/
def Carries (R R' : σ → τ → Prop) (Q : α → Prop) (x : Run σ α) (y : Run τ α) : Prop :=
  ∀ v m n, R m n → R' (x v m).state (y v n).state ∧ (x v m).value = (y v n).value ∧
    ∀ a, (x v m).value = .ok a → Q a

/-- Two states are the same one, and have a property. -/
def Same (P : σ → Prop) (m n : σ) : Prop := m = n ∧ P m

variable {R R' R'' : σ → τ → Prop} {P : σ → Prop} {Q : α → Prop} {S : β → Prop} {x : Run σ α}
  {y : Run τ α} {f : α → Run σ β} {g : α → Run τ β}

/-- A run goes in step with itself if it keeps a property and its values satisfy a condition. -/
theorem inStep_same_iff : InStep (Same P) Q x x ↔
    ∀ v m, P m → P (x v m).state ∧ ∀ a, (x v m).value = .ok a → Q a := by
  constructor
  · intro h v m hm
    obtain ⟨hstate, -, hvalue⟩ := h v m m ⟨rfl, hm⟩
    exact ⟨hstate.2, hvalue⟩
  · rintro h v m _ ⟨rfl, hm⟩
    obtain ⟨hstate, hvalue⟩ := h v m hm
    exact ⟨⟨rfl, hstate⟩, rfl, hvalue⟩

/-- A run that keeps a property goes in step with itself. -/
theorem Preserves.inStep (h : Preserves P x) : InStep (Same P) (fun _ => True) x x :=
  inStep_same_iff.2 fun v m hm => ⟨h v m hm, fun _ _ => trivial⟩

theorem value_note (l : Level) (t : Unit → String) (v : Verbosity) (m : σ) :
    (note l t v m).value = .ok () := by
  show ((Logged.note l t).record v).2 = _
  rw [Logged.record_note]

namespace Carries

/-- One run after the other. Where the first one faults, its relation has to do for both. -/
theorem bind (hx : Carries R R' Q x y) (hf : ∀ a, Q a → Carries R' R'' S (f a) (g a))
    (hweaken : ∀ m n, R' m n → R'' m n) : Carries R R'' S (x >>= f) (y >>= g) := by
  intro v m n hmn
  obtain ⟨hstate, hvalue, hpost⟩ := hx v m n hmn
  show R'' (andThen x f v m).state (andThen y g v n).state ∧
    (andThen x f v m).value = (andThen y g v n).value ∧
    ∀ b, (andThen x f v m).value = .ok b → S b
  unfold andThen
  generalize x v m = turn at hstate hvalue hpost ⊢
  generalize y v n = turn' at hstate hvalue ⊢
  obtain ⟨ls, s, w⟩ := turn
  obtain ⟨ls', t, w'⟩ := turn'
  obtain rfl : w = w' := hvalue
  cases w with
  | ok a => exact hf a (hpost a rfl) v s t hstate
  | error e => exact ⟨hweaken s t hstate, rfl, fun _ h => nomatch h⟩

theorem weaken (h : Carries R R' Q x y) (hweaken : ∀ m n, R' m n → R'' m n) :
    Carries R R'' Q x y := by
  intro v m n hmn
  obtain ⟨hstate, hvalue⟩ := h v m n hmn
  exact ⟨hweaken _ _ hstate, hvalue⟩

/-- One step after the other, where each of them may be turned down. -/
theorem run_bind {Q : Except ε α → Prop} {S : Except ε β → Prop} {x : ExceptT ε (Run σ) α}
    {y : ExceptT ε (Run τ) α} {f : α → ExceptT ε (Run σ) β} {g : α → ExceptT ε (Run τ) β}
    (hx : Carries R R' Q x.run y.run)
    (hf : ∀ a, Q (.ok a) → Carries R' R'' S (f a).run (g a).run)
    (he : ∀ e, Q (.error e) → S (.error e)) (hweaken : ∀ m n, R' m n → R'' m n) :
    Carries R R'' S (x >>= f).run (y >>= g).run := by
  refine hx.bind (fun r hr => ?_) hweaken
  cases r with
  | ok a => exact hf a hr
  | error e =>
    intro v m n hmn
    refine ⟨hweaken m n hmn, rfl, fun b hb => ?_⟩
    obtain rfl := Except.ok.inj hb
    exact he e hr

end Carries

namespace InStep

theorem carries (h : InStep R Q x y) : Carries R R Q x y := h

theorem of_outcomes (h : ∀ v m n, R m n → ∃ m' n' w, (x v m).outcome = (m', w) ∧
    (y v n).outcome = (n', w) ∧ R m' n') : InStep R (fun _ => True) x y := by
  intro v m n hmn
  obtain ⟨m', n', w, hx, hy, hrelated⟩ := h v m n hmn
  obtain ⟨rfl, rfl⟩ := Prod.mk.inj hx
  obtain ⟨rfl, hvalue⟩ := Prod.mk.inj hy
  exact ⟨hrelated, hvalue.symm, fun _ _ => trivial⟩

theorem mono {Q' : α → Prop} (h : InStep R Q x y) (hQ : ∀ a, Q a → Q' a) : InStep R Q' x y := by
  intro v m n hmn
  obtain ⟨hstate, hvalue, hpost⟩ := h v m n hmn
  exact ⟨hstate, hvalue, fun a ha => hQ a (hpost a ha)⟩

theorem pure {a : α} (ha : Q a) : InStep R Q (Pure.pure a) (Pure.pure a) := by
  intro v m n hmn
  refine ⟨hmn, rfl, fun b hb => ?_⟩
  obtain rfl := Except.ok.inj hb
  exact ha

theorem fault (e : Fault) : InStep R Q (Run.fault e) (Run.fault e) :=
  fun _ _ _ hmn => ⟨hmn, rfl, fun _ h => nomatch h⟩

theorem note (l : Level) (t u : Unit → String) :
    InStep R (fun _ => True) (Run.note l t) (Run.note l u) := by
  intro v m n hmn
  exact ⟨hmn, (value_note l t v m).trans (value_note l u v n).symm, fun _ _ => trivial⟩

theorem ofLogged (x : Logged α) :
    InStep R (fun _ => True) (Run.ofLogged x) (Run.ofLogged x) :=
  fun _ _ _ hmn => ⟨hmn, rfl, fun _ _ => trivial⟩

theorem bind (hx : InStep R Q x y) (hf : ∀ a, Q a → InStep R S (f a) (g a)) :
    InStep R S (x >>= f) (y >>= g) :=
  hx.carries.bind (fun a ha => (hf a ha).carries) fun _ _ => id

theorem note_bind {l : Level} {t u : Unit → String} {f : Unit → Run σ β} {g : Unit → Run τ β}
    (h : InStep R S (f ()) (g ())) :
    InStep R S (Run.note l t >>= f) (Run.note l u >>= g) :=
  (note l t u).bind fun _ _ => h

/-! ### Steps that may be turned down -/

variable {Q : Except ε α → Prop} {S : Except ε β → Prop} {x : ExceptT ε (Run σ) α}
  {y : ExceptT ε (Run τ) α} {f : α → ExceptT ε (Run σ) β} {g : α → ExceptT ε (Run τ) β}

theorem run_bind (hx : InStep R Q x.run y.run)
    (hf : ∀ a, Q (.ok a) → InStep R S (f a).run (g a).run) (he : ∀ e, Q (.error e) → S (.error e)) :
    InStep R S (x >>= f).run (y >>= g).run :=
  hx.carries.run_bind (fun a ha => (hf a ha).carries) he fun _ _ => id

theorem run_note (l : Level) (t u : Unit → String) :
    InStep R (fun _ => True) (liftM (Logged.note l t) : ExceptT ε (Run σ) Unit).run
      (liftM (Logged.note l u) : ExceptT ε (Run τ) Unit).run :=
  (note l t u).bind fun _ _ => .pure trivial

end InStep

end Run

end Guillotine
