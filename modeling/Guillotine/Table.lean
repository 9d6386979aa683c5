/-! Finite maps. A table is a list of entries of which the first one with a key counts; inserting
and erasing leave no other entry with that key behind. -/
namespace Guillotine

structure Table (κ α : Type) where
  entries : List (κ × α)
deriving DecidableEq, Repr

namespace Table

variable {κ α : Type} [DecidableEq κ]

def empty : Table κ α := ⟨[]⟩

def get? (t : Table κ α) (k : κ) : Option α := (t.entries.find? fun e => e.1 = k).map Prod.snd

/-- The entries that satisfy a condition. -/
def filter (t : Table κ α) (p : κ → α → Bool) : Table κ α :=
  ⟨t.entries.filter fun (k, a) => p k a⟩

def erase (t : Table κ α) (k : κ) : Table κ α := t.filter fun j _ => j ≠ k

/-- Add an entry in place of one with the same key. -/
def insert (t : Table κ α) (k : κ) (a : α) : Table κ α := ⟨(k, a) :: (t.erase k).entries⟩

/-- A table of some entries, later ones in place of earlier ones. -/
def ofList (es : List (κ × α)) : Table κ α := es.foldl (fun t (k, a) => t.insert k a) empty

def size (t : Table κ α) : Nat := t.entries.length

@[simp] theorem get?_empty (k : κ) : (empty : Table κ α).get? k = none := rfl

theorem get?_erase (t : Table κ α) (k j : κ) :
    (t.erase k).get? j = if j = k then none else t.get? j := by
  obtain ⟨es⟩ := t
  unfold erase filter get?
  induction es with
  | nil => simp
  | cons e es ih =>
    obtain ⟨i, a⟩ := e
    by_cases hik : i = k <;> by_cases hij : i = j <;> grind

@[simp] theorem get?_insert (t : Table κ α) (k j : κ) (a : α) :
    (t.insert k a).get? j = if j = k then some a else t.get? j := by
  have h := get?_erase t k j
  unfold get? at h
  unfold insert get?
  by_cases hkj : k = j <;> grind

end Table

end Guillotine
