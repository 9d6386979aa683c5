import Guillotine.Plan.Packer

/-! Computations that return. A computation with a journal returns a value if it ends in that value
rather than in a fault, and a step of packing if it neither faults nor turns the demand down. What
a composite must have done in order to return is read off here, one equivalence for each way of
composing. -/
namespace Guillotine

variable {α β : Type}

/-- A computation that can fail ends well just if both of its parts do. -/
theorem bind_eq_ok_iff {ε : Type} {x : Except ε α} {f : α → Except ε β} {b : β} :
    (x >>= f) = .ok b ↔ ∃ a, x = .ok a ∧ f a = .ok b := by
  cases x with
  | ok a =>
    change f a = .ok b ↔ _
    simp
  | error e =>
    change Except.error e = .ok b ↔ _
    simp

/-- A result is changed just if there is one. -/
theorem map_eq_ok_iff {ε : Type} {x : Except ε α} {f : α → β} {b : β} :
    x.map f = .ok b ↔ ∃ a, x = .ok a ∧ f a = b := by
  cases x with
  | ok a =>
    change Except.ok (f a) = .ok b ↔ _
    simp
  | error e =>
    change Except.error e = .ok b ↔ _
    simp

/-- A computation that ends well on every item of a list does so on the list, and what is known of
its results is known of them together. -/
theorem exists_mapM {ε γ : Type} {f : α → Except ε β} {g : β → γ} {k : α → γ} {as : List α}
    (h : ∀ a ∈ as, ∃ b, f a = .ok b ∧ g b = k a) :
    ∃ bs, as.mapM f = .ok bs ∧ bs.map g = as.map k := by
  induction as with
  | nil => exact ⟨[], rfl, rfl⟩
  | cons a as ih =>
    rw [List.forall_mem_cons] at h
    obtain ⟨b, hb, hgb⟩ := h.1
    obtain ⟨bs, hbs, hgbs⟩ := ih h.2
    refine ⟨b :: bs, ?_, ?_⟩
    · rw [List.mapM_cons, hb, hbs]
      rfl
    · rw [List.map_cons, List.map_cons, hgb, hgbs]

/-- The computation ends in `a`. -/
def Logged.Returns (x : Logged α) (a : α) : Prop := x.value = .ok a

/-- The step of packing ends in `a`. -/
def Packing.Returns (x : Packing α) (a : α) : Prop := Logged.Returns x.run (.ok a)

namespace Logged

variable {x : Logged α} {f : α → Logged β} {a : α} {b : β}

@[simp] theorem returns_pure {c : α} : (pure c : Logged α).Returns a ↔ c = a := by
  simp [Returns]

theorem returns_bind : (x >>= f).Returns b ↔ ∃ a, x.Returns a ∧ (f a).Returns b := by
  simp only [Returns, value_bind]
  exact bind_eq_ok_iff

@[simp] theorem returns_lift {c : Checked α} : (liftM c : Logged α).Returns a ↔ c = .ok a :=
  Iff.rfl

@[simp] theorem returns_fault {e : Fault} : ¬ (fault e : Logged α).Returns a := by
  simp [Returns]

@[simp] theorem returns_note {l : Level} {t : Unit → String} {u : Unit} :
    (note l t).Returns u := rfl

@[simp] theorem returns_noteChecked {l : Level} {t : Unit → Checked String} {u : Unit} :
    (noteChecked l t).Returns u := rfl

@[simp] theorem returns_note_bind {l : Level} {t : Unit → String} {g : Unit → Logged β} :
    (note l t >>= g).Returns b ↔ (g ()).Returns b := by
  rw [returns_bind]
  exact ⟨fun ⟨_, _, h⟩ => h, fun h => ⟨(), rfl, h⟩⟩

/-- A computation ends in one value at most. -/
theorem Returns.unique {a a' : α} (h : x.Returns a) (h' : x.Returns a') : a = a' :=
  Except.ok.inj (h.symm.trans h')

/-- What follows a computation matters only on the value that it returns. -/
theorem bind_congr_returns {g : α → Logged β} (h : ∀ a, x.Returns a → f a = g a) :
    x >>= f = x >>= g := by
  obtain ⟨ns, v⟩ := x
  cases v with
  | ok a =>
    change andThen _ _ = andThen _ _
    simp only [andThen, h a rfl]
  | error e => rfl

end Logged

namespace Packing

variable {x : Packing α} {f : α → Packing β} {a : α} {b : β}

@[simp] theorem returns_pure {c : α} : Returns (pure c) a ↔ c = a := by
  change Logged.Returns (pure (.ok c)) (Except.ok a) ↔ _
  simp

theorem returns_bind : Returns (x >>= f) b ↔ ∃ a, Returns x a ∧ Returns (f a) b := by
  change Logged.Returns (x.run >>= ExceptT.bindCont f) (.ok b) ↔ _
  rw [Logged.returns_bind]
  constructor
  · rintro ⟨r, hx, hf⟩
    cases r with
    | ok a => exact ⟨a, hx, hf⟩
    | error e => cases Logged.returns_pure.1 hf
  · rintro ⟨a, hx, hf⟩
    exact ⟨.ok a, hx, hf⟩

/-- A step ends in one value at most. -/
theorem Returns.unique {a a' : α} (h : Returns x a) (h' : Returns x a') : a = a' :=
  Except.ok.inj (Logged.Returns.unique h h')

/-- What follows a step matters only on the value that it returns. -/
theorem bind_congr_returns {g : α → Packing β} (h : ∀ a, Returns x a → f a = g a) :
    x >>= f = x >>= g := by
  change ExceptT.mk (x.run >>= ExceptT.bindCont f) = ExceptT.mk (x.run >>= ExceptT.bindCont g)
  congr 1
  apply Logged.bind_congr_returns
  intro r hr
  cases r with
  | ok a => exact h a hr
  | error e => rfl

@[simp] theorem returns_ofExcept {r : Except Rejection α} :
    Returns (ExceptT.mk (pure r)) a ↔ r = .ok a := by
  change Logged.Returns (pure r) (.ok a) ↔ _
  simp

@[simp] theorem returns_lift {y : Logged α} : Returns (liftM y) a ↔ y.Returns a := by
  change Logged.Returns (y >>= fun c => pure (Except.ok c)) (.ok a) ↔ _
  simp [Logged.returns_bind]

/-- A notice does not keep a step from returning. -/
@[simp] theorem returns_note_bind {l : Level} {t : Unit → String} {g : Unit → Packing β} :
    Returns (liftM (Logged.note l t) >>= g) b ↔ Returns (g ()) b := by
  rw [returns_bind]
  exact ⟨fun ⟨_, _, h⟩ => h, fun h => ⟨(), by simp, h⟩⟩

theorem not_returns_fault {e : Fault} : ¬ Returns (Logged.fault e : Packing α) a :=
  Logged.returns_fault

@[simp] theorem returns_fault_bind {e : Fault} {g : Unit → Packing β} :
    ¬ Returns ((Logged.fault e : Packing Unit) >>= g) b := by
  rw [returns_bind]
  rintro ⟨u, h, -⟩
  exact Logged.returns_fault h

theorem returns_notes {γ : Type} {l : Level} {t : γ → Unit → String} (cs : List γ) :
    Returns (cs.forM fun c => (liftM (Logged.note l (t c)) : Packing Unit)) () := by
  induction cs with
  | nil => exact returns_pure.2 rfl
  | cons c cs ih => exact returns_note_bind.2 ih

/-- Notices about the items of a list do not keep a step from returning. -/
@[simp] theorem returns_notes_bind {γ : Type} {l : Level} {t : γ → Unit → String} {cs : List γ}
    {g : Unit → Packing β} :
    Returns ((cs.forM fun c => liftM (Logged.note l (t c))) >>= g) b ↔ Returns (g ()) b := by
  rw [returns_bind]
  exact ⟨fun ⟨_, _, h⟩ => h, fun h => ⟨(), returns_notes cs, h⟩⟩

end Packing

end Guillotine
