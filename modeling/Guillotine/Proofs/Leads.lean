import Guillotine.Proofs.Returns

/-! Computations that lead others. One computation leads another one if, whenever it returns, the
other one returns a related value; nothing is asked where it faults or turns the demand down. This
is kept by composition, where what follows may use that the value was returned. -/
namespace Guillotine

variable {α β γ δ : Type}

/-- Whenever `x` returns, `y` returns a related value. -/
def Logged.Leads (R : α → β → Prop) (x : Logged α) (y : Logged β) : Prop :=
  ∀ a, x.Returns a → ∃ b, y.Returns b ∧ R a b

/-- Whenever the step `x` of packing returns, `y` returns a related value. -/
def Packing.Leads (R : α → β → Prop) (x : Packing α) (y : Packing β) : Prop :=
  ∀ a, Returns x a → ∃ b, Returns y b ∧ R a b

namespace Logged

variable {R : α → β → Prop} {S : γ → δ → Prop} {x : Logged α} {y : Logged β} {f : α → Logged γ}
  {g : β → Logged δ}

theorem Leads.pure {a : α} {b : β} (h : R a b) :
    Leads R (Pure.pure a : Logged α) (Pure.pure b : Logged β) := by
  intro a' ha
  obtain rfl := returns_pure.1 ha
  exact ⟨b, returns_pure.2 rfl, h⟩

theorem Leads.bind (h : Leads R x y) (hf : ∀ a b, x.Returns a → R a b → Leads S (f a) (g b)) :
    Leads S (x >>= f) (y >>= g) := by
  intro c hc
  obtain ⟨a, ha, hc⟩ := returns_bind.1 hc
  obtain ⟨b, hb, hab⟩ := h a ha
  obtain ⟨d, hd, hcd⟩ := hf a b ha hab c hc
  exact ⟨d, returns_bind.2 ⟨b, hb, hd⟩, hcd⟩

theorem Leads.note {l l' : Level} {t t' : Unit → String} :
    Leads (fun _ _ => True) (note l t) (note l' t') :=
  fun _ _ => ⟨(), returns_note, trivial⟩

end Logged

namespace Packing

variable {R : α → β → Prop} {S : γ → δ → Prop} {x : Packing α} {y : Packing β}
  {f : α → Packing γ} {g : β → Packing δ}

theorem Leads.refl (x : Packing α) : Leads Eq x x := fun a h => ⟨a, h, rfl⟩

theorem Leads.pure {a : α} {b : β} (h : R a b) :
    Leads R (Pure.pure a : Packing α) (Pure.pure b : Packing β) := by
  intro a' ha
  obtain rfl := returns_pure.1 ha
  exact ⟨b, returns_pure.2 rfl, h⟩

theorem Leads.bind (h : Leads R x y) (hf : ∀ a b, Returns x a → R a b → Leads S (f a) (g b)) :
    Leads S (x >>= f) (y >>= g) := by
  intro c hc
  obtain ⟨a, ha, hc⟩ := returns_bind.1 hc
  obtain ⟨b, hb, hab⟩ := h a ha
  obtain ⟨d, hd, hcd⟩ := hf a b ha hab c hc
  exact ⟨d, returns_bind.2 ⟨b, hb, hd⟩, hcd⟩

theorem Leads.lift {x : Logged α} {y : Logged β} (h : Logged.Leads R x y) :
    Leads R (liftM x : Packing α) (liftM y : Packing β) := by
  intro a ha
  obtain ⟨b, hb, hab⟩ := h a (returns_lift.1 ha)
  exact ⟨b, returns_lift.2 hb, hab⟩

theorem Leads.ofExcept {r : Except Rejection α} {q : Except Rejection β}
    (h : ∀ a, r = .ok a → ∃ b, q = .ok b ∧ R a b) :
    Leads R (ExceptT.mk (Pure.pure r)) (ExceptT.mk (Pure.pure q)) := by
  intro a ha
  obtain ⟨b, hb, hab⟩ := h a (returns_ofExcept.1 ha)
  exact ⟨b, returns_ofExcept.2 hb, hab⟩

/-- A step that faults leads any other. -/
theorem Leads.fault {e : Fault} {y : Packing β} : Leads R (Logged.fault e : Packing α) y :=
  fun _ ha => (not_returns_fault ha).elim

theorem Leads.notes {l l' : Level} {t : α → Unit → String} {t' : β → Unit → String} (as : List α)
    (bs : List β) :
    Leads (fun _ _ => True) (as.forM fun a => (liftM (Logged.note l (t a)) : Packing Unit))
      (bs.forM fun b => (liftM (Logged.note l' (t' b)) : Packing Unit)) :=
  fun _ _ => ⟨(), returns_notes bs, trivial⟩

end Packing

end Guillotine
