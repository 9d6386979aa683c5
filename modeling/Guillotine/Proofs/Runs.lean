import Guillotine.Journal

/-! Computations on a state, apart from the lines they record: the state that is reached, and the
value or the fault. What a composite reaches is read off its parts. -/
namespace Guillotine

variable {σ α β ε : Type}

/-- What a turn leaves behind, apart from its lines. -/
def Turn.outcome (t : Turn σ α) : σ × Checked α := (t.state, t.value)

/-! ### Journals -/

namespace Logged

theorem recordNotices_append (v : Verbosity) (ns ms : List Notice) :
    (recordNotices v (ns ++ ms)).2 = ((recordNotices v ns).2).or (recordNotices v ms).2 := by
  induction ns with
  | nil => simp [recordNotices]
  | cons n ns ih =>
    simp only [List.cons_append, recordNotices]
    split
    · cases n.text () with
      | ok t => exact ih
      | error f => rfl
    · exact ih

/-- What is seen of a computation: the first fault of a recorded notice, or else the value. -/
theorem record_eq (v : Verbosity) (x : Logged α) : (x.record v).2 =
    match (recordNotices v x.notices).2 with
    | some e => .error e
    | none => x.value := by
  unfold record
  obtain ⟨ls, f⟩ := recordNotices v x.notices
  cases f <;> rfl

/-- A value that is seen is the value. -/
theorem value_of_record {v : Verbosity} {x : Logged α} {a : α} (h : (x.record v).2 = .ok a) :
    x.value = .ok a := by
  rw [record_eq] at h
  split at h
  · cases h
  · exact h

/-- What is seen of a composite is composed of what is seen of its parts. -/
theorem record_bind (v : Verbosity) (x : Logged α) (f : α → Logged β) :
    ((x >>= f).record v).2 = (x.record v).2 >>= fun a => ((f a).record v).2 := by
  obtain ⟨ns, w⟩ := x
  rw [record_eq, record_eq]
  cases w with
  | error e =>
    show (match (recordNotices v ns).2 with | some e => _ | none => _) = _
    cases (recordNotices v ns).2 <;> rfl
  | ok a =>
    show (match (recordNotices v (ns ++ (f a).notices)).2 with | some e => _ | none => _) = _
    rw [recordNotices_append]
    dsimp only
    cases (recordNotices v ns).2 with
    | some e => rfl
    | none => exact (record_eq v (f a)).symm

@[simp] theorem record_lift (v : Verbosity) (x : Checked α) :
    ((liftM x : Logged α).record v).2 = x := rfl

@[simp] theorem record_note (v : Verbosity) (l : Level) (t : Unit → String) :
    ((note l t).record v).2 = .ok () := by
  show (Logged.record v ⟨[⟨l, fun u => .ok (t u)⟩], .ok ()⟩).2 = _
  unfold record
  simp only [recordNotices]
  by_cases hv : v.admits l = true
  · rw [if_pos hv]
  · rw [if_neg hv]

/-- A notice whose text may fault does so for those who record it. -/
theorem record_noteChecked (v : Verbosity) (l : Level) (t : Unit → Checked String) :
    ((noteChecked l t).record v).2 =
      if v.admits l then (t ()).map fun _ => () else .ok () := by
  rw [record_eq]
  show (match (recordNotices v [⟨l, t⟩]).2 with | some e => _ | none => _) = _
  simp only [recordNotices]
  by_cases hv : v.admits l = true
  · rw [if_pos hv, if_pos hv]
    cases t () <;> rfl
  · rw [if_neg hv, if_neg hv]
    rfl

/-- Whether what is seen of a computation is its value, whoever watches: no notice of it faults. -/
def Quiet (x : Logged α) : Prop := ∀ v, (x.record v).2 = x.value

theorem quiet_pure (a : α) : (pure a : Logged α).Quiet := fun _ => rfl

theorem quiet_lift (x : Checked α) : (liftM x : Logged α).Quiet := fun _ => rfl

theorem quiet_fault (e : Fault) : (fault e : Logged α).Quiet := fun _ => rfl

theorem quiet_note (l : Level) (t : Unit → String) : (note l t).Quiet := fun v => record_note v l t

theorem Quiet.bind {x : Logged α} {f : α → Logged β} (hx : x.Quiet) (hf : ∀ a, (f a).Quiet) :
    (x >>= f).Quiet := by
  intro v
  rw [record_bind, hx v, value_bind]
  congr
  funext a
  exact hf a v

theorem record_run_bind (v : Verbosity) (x : ExceptT ε Logged α) (f : α → ExceptT ε Logged β) :
    ((x >>= f).run.record v).2 = (x.run.record v).2 >>= fun
      | .ok a => ((f a).run.record v).2
      | .error e => .ok (.error e) := by
  show (Logged.record v (x.run >>= ExceptT.bindCont f)).2 = _
  rw [record_bind]
  congr
  funext r
  cases r <;> rfl

@[simp] theorem record_run_lift (v : Verbosity) (x : Logged α) :
    ((liftM x : ExceptT ε Logged α).run.record v).2 = (x.record v).2.map .ok := by
  show (Logged.record v (x >>= fun a => pure (Except.ok a))).2 = _
  rw [record_bind]
  cases (x.record v).2 <;> rfl

end Logged

/-! ### Runs -/

namespace Run

variable {x : Run σ α} {f : α → Run σ β} {v : Verbosity} {s t : σ} {a : α} {e : Fault}

theorem outcome_bind : ((x >>= f) v s).outcome =
    match (x v s).outcome with
    | (t, .ok a) => (f a v t).outcome
    | (t, .error e) => (t, .error e) := by
  show (andThen x f v s).outcome = _
  unfold andThen Turn.outcome
  obtain ⟨ls, t, w⟩ := x v s
  cases w <;> rfl

theorem outcome_bind_ok (h : (x v s).outcome = (t, .ok a)) :
    ((x >>= f) v s).outcome = (f a v t).outcome := by
  rw [outcome_bind, h]

theorem outcome_bind_error (h : (x v s).outcome = (t, .error e)) :
    ((x >>= f) v s).outcome = (t, .error e) := by
  rw [outcome_bind, h]

@[simp] theorem outcome_note {l : Level} {t : Unit → String} :
    ((note l t : Run σ Unit) v s).outcome = (s, .ok ()) := by
  show (s, ((Logged.note l t).record v).2) = _
  rw [Logged.record_note]

@[simp] theorem outcome_note_bind {l : Level} {t : Unit → String} {g : Unit → Run σ β} :
    ((note l t >>= g) v s).outcome = (g () v s).outcome :=
  outcome_bind_ok outcome_note

end Run

/-! ### Steps that may be turned down -/

section Steps

variable {x : ExceptT ε (Run σ) α} {f : α → ExceptT ε (Run σ) β} {v : Verbosity} {s t : σ}

theorem outcome_run_bind : ((x >>= f).run v s).outcome =
    match (x.run v s).outcome with
    | (t, .ok (.ok a)) => ((f a).run v t).outcome
    | (t, .ok (.error r)) => (t, .ok (.error r))
    | (t, .error e) => (t, .error e) := by
  show ((x.run >>= ExceptT.bindCont f) v s).outcome = _
  rw [Run.outcome_bind]
  obtain ⟨t, w⟩ := (x.run v s).outcome
  rcases w with e | r | a <;> rfl

theorem outcome_run_bind_ok {a : α} (h : (x.run v s).outcome = (t, .ok (.ok a))) :
    ((x >>= f).run v s).outcome = ((f a).run v t).outcome := by
  rw [outcome_run_bind, h]

theorem outcome_run_bind_thrown {r : ε} (h : (x.run v s).outcome = (t, .ok (.error r))) :
    ((x >>= f).run v s).outcome = (t, .ok (.error r)) := by
  rw [outcome_run_bind, h]

theorem outcome_run_bind_fault {e : Fault} (h : (x.run v s).outcome = (t, .error e)) :
    ((x >>= f).run v s).outcome = (t, .error e) := by
  rw [outcome_run_bind, h]

theorem outcome_run_lift {y : Run σ α} : ((liftM y : ExceptT ε (Run σ) α).run v s).outcome =
    ((y v s).outcome.1, (y v s).outcome.2.map .ok) := by
  show ((y >>= fun a => pure (Except.ok a)) v s).outcome = _
  rw [Run.outcome_bind]
  obtain ⟨t, w⟩ := (y v s).outcome
  cases w <;> rfl

theorem outcome_run_lift_ok {y : Run σ α} {a : α} (h : (y v s).outcome = (t, .ok a)) :
    ((liftM y : ExceptT ε (Run σ) α).run v s).outcome = (t, .ok (.ok a)) := by
  rw [outcome_run_lift, h]
  rfl

end Steps

/-! ### Properties of all outcomes -/

namespace Run

/-- Whether a property of runs holds of notes, and of runs one after the other if it holds of each
of them. -/
structure Composable (Q : (α : Type) → Run σ α → Prop) : Prop where
  pure {α : Type} (a : α) : Q α (Pure.pure a)
  note (l : Level) (t : Unit → String) : Q Unit (note l t)
  bind {α β : Type} {x : Run σ α} {f : α → Run σ β} (hx : Q α x) (hf : ∀ a, Q β (f a)) :
    Q β (x >>= f)

/-- A run that starts from a state with a property keeps it, whether it ends in a value or in a
fault. -/
def Preserves (P : σ → Prop) (x : Run σ α) : Prop :=
  ∀ (v : Verbosity) (s : σ), P s → P (x v s).state

/-- A run ends in a value or in an expected fault, whatever state it starts from. -/
def FaultsOnly (E : Fault → Prop) (x : Run σ α) : Prop :=
  ∀ (v : Verbosity) (s : σ) (e : Fault), (x v s).value = .error e → E e

variable {P : σ → Prop} {E : Fault → Prop} {x : Run σ α} {f : α → Run σ β}

/-- A property of the state that a run reaches is one of the end if what follows preserves it. -/
theorem Preserves.after {v : Verbosity} {s : σ} (hf : ∀ a, Preserves P (f a))
    (hx : P (x v s).state) : P ((x >>= f) v s).state := by
  show P (andThen x f v s).state
  unfold andThen
  generalize x v s = turn at hx ⊢
  obtain ⟨ls, t, w⟩ := turn
  cases w with
  | ok a => exact hf a v t hx
  | error e => exact hx

theorem Preserves.run_after {x : ExceptT ε (Run σ) α} {f : α → ExceptT ε (Run σ) β}
    {v : Verbosity} {s : σ} (hf : ∀ a, Preserves P (f a).run) (hx : P (x.run v s).state) :
    P ((x >>= f).run v s).state := by
  apply Preserves.after _ hx
  intro r
  cases r with
  | ok a => exact hf a
  | error e => exact fun _ _ h => h

theorem composable_preserves (P : σ → Prop) : Composable fun _ x => Preserves P x where
  pure _ _ _ h := h
  note _ _ _ _ h := h
  bind hx hf v s hs := Preserves.after hf (hx v s hs)

theorem FaultsOnly.bind (hx : FaultsOnly E x) (hf : ∀ a, FaultsOnly E (f a)) :
    FaultsOnly E (x >>= f) := by
  intro v s e h
  change (andThen x f v s).value = .error e at h
  have hvalue := hx v s e
  unfold andThen at h
  generalize x v s = turn at hvalue h
  obtain ⟨ls, t, w⟩ := turn
  cases w with
  | ok a => exact hf a v t e h
  | error e' =>
    cases h
    exact hvalue rfl

theorem FaultsOnly.note (l : Level) (t : Unit → String) :
    FaultsOnly E (note l t : Run σ Unit) := by
  intro v _ e h
  change ((Logged.note l t).record v).2 = .error e at h
  rw [Logged.record_note] at h
  cases h

theorem composable_faultsOnly (E : Fault → Prop) :
    Composable fun _ (x : Run σ _) => FaultsOnly E x where
  pure _ := nofun
  note := FaultsOnly.note
  bind := FaultsOnly.bind

end Run

end Guillotine
