import Guillotine.Fault

/-! The journal of a computation. What a computation has to say on its way is a list of notices,
each with a level and a text that is only worked out when someone records that level. Working it
out can fault, and then the computation ends there. So a notice is data, `value` forgets the
notices, and `record` says what remains of them at a given verbosity. -/
namespace Guillotine

/-- Importance of a notice, the gravest first. -/
inductive Level where
  | error
  | warn
  | info
  | debug
  | trace
deriving DecidableEq, Repr

namespace Level

def rank : Level → Nat
  | .error => 1
  | .warn => 2
  | .info => 3
  | .debug => 4
  | .trace => 5

def name : Level → String
  | .error => "ERROR"
  | .warn => "WARN"
  | .info => "INFO"
  | .debug => "DEBUG"
  | .trace => "TRACE"

end Level

/-- The least grave level that is recorded, `none` if nothing is. -/
abbrev Verbosity := Option Level

namespace Verbosity

/-- Whether a notice of this level is recorded. -/
def admits (v : Verbosity) (l : Level) : Bool :=
  match v with
  | none => false
  | some limit => l.rank ≤ limit.rank

/-- The name of a verbosity, `OFF` where nothing is recorded. -/
def name : Verbosity → String
  | none => "OFF"
  | some l => l.name

end Verbosity

/-- Something a computation has to say. -/
structure Notice where
  level : Level
  text : Unit → Checked String

/-- A recorded notice. -/
structure Line where
  level : Level
  text : String
deriving DecidableEq, Repr

/-- The lines recorded of some notices, up to the first text that faults. -/
def recordNotices (v : Verbosity) : List Notice → List Line × Option Fault
  | [] => ([], none)
  | n :: ns =>
    if v.admits n.level then
      match n.text () with
      | .ok t =>
        let (ls, f) := recordNotices v ns
        (⟨n.level, t⟩ :: ls, f)
      | .error f => ([], some f)
    else recordNotices v ns

/-! ### Computations with a journal -/

/-- A computation that leaves notices and ends in a value or a fault. -/
structure Logged (α : Type) where
  notices : List Notice
  value : Checked α

namespace Logged

variable {α β : Type}

/-- Say nothing and return a result. -/
def ofChecked (x : Checked α) : Logged α := ⟨[], x⟩

def andThen (x : Logged α) (f : α → Logged β) : Logged β :=
  match x with
  | ⟨ns, .ok a⟩ =>
    let y := f a
    ⟨ns ++ y.notices, y.value⟩
  | ⟨ns, .error e⟩ => ⟨ns, .error e⟩

instance : Monad Logged where
  pure a := ⟨[], .ok a⟩
  bind := andThen

instance : MonadLift (Except Fault) Logged := ⟨ofChecked⟩

/-- Stop with a fault. -/
def fault (e : Fault) : Logged α := ⟨[], .error e⟩

/-- Leave one notice whose text may fault. -/
def noteChecked (level : Level) (text : Unit → Checked String) : Logged Unit :=
  ⟨[⟨level, text⟩], .ok ()⟩

/-- Leave one notice. -/
def note (level : Level) (text : Unit → String) : Logged Unit :=
  noteChecked level fun u => .ok (text u)

/-- What an observer at verbosity `v` sees: the lines, and the fault of a line's text in place of
all that came after it. -/
def record (v : Verbosity) (x : Logged α) : List Line × Checked α :=
  match recordNotices v x.notices with
  | (ls, some f) => (ls, .error f)
  | (ls, none) => (ls, x.value)

@[simp] theorem value_pure (a : α) : (pure a : Logged α).value = .ok a := rfl

@[simp] theorem value_ofChecked (x : Checked α) : (ofChecked x).value = x := rfl

@[simp] theorem value_bind (x : Logged α) (f : α → Logged β) :
    (x >>= f).value = x.value >>= fun a => (f a).value := by
  obtain ⟨ns, v⟩ := x
  cases v <;> rfl

@[simp] theorem value_fault (e : Fault) : (fault e : Logged α).value = .error e := rfl

@[simp] theorem value_note (l : Level) (t : Unit → String) : (note l t).value = .ok () := rfl

@[simp] theorem value_noteChecked (l : Level) (t : Unit → Checked String) :
    (noteChecked l t).value = .ok () := rfl

/-- Nobody who records nothing can tell a computation from its value. -/
theorem record_none (x : Logged α) : x.record none = ([], x.value) := by
  have h : ∀ ns, recordNotices none ns = ([], none) := by
    intro ns
    induction ns with
    | nil => rfl
    | cons n ns ih => simp [recordNotices, Verbosity.admits, ih]
  simp [record, h]

end Logged

/-! ### Computations on a state -/

/-- What a computation on a state leaves behind: the lines recorded, the state it reached, and a
value or a fault. A fault does not undo the changes made before it. -/
structure Turn (σ α : Type) where
  lines : List Line
  state : σ
  value : Checked α

/-- A computation on a state, watched at some verbosity. -/
def Run (σ α : Type) := Verbosity → σ → Turn σ α

namespace Run

variable {σ α β : Type}

def andThen (x : Run σ α) (f : α → Run σ β) : Run σ β := fun v s =>
  match x v s with
  | ⟨ls, t, .ok a⟩ =>
    let y := f a v t
    ⟨ls ++ y.lines, y.state, y.value⟩
  | ⟨ls, t, .error e⟩ => ⟨ls, t, .error e⟩

instance : Monad (Run σ) where
  pure a := fun _ s => ⟨[], s, .ok a⟩
  bind := andThen

instance : MonadStateOf σ (Run σ) where
  get := fun _ s => ⟨[], s, .ok s⟩
  set t := fun _ _ => ⟨[], t, .ok ()⟩
  modifyGet f := fun _ s => let (a, t) := f s; ⟨[], t, .ok a⟩

/-- Run something that has no state, recording its notices; the run ends where one faults. -/
def ofLogged (x : Logged α) : Run σ α := fun v s =>
  let (ls, r) := x.record v
  ⟨ls, s, r⟩

instance : MonadLift Logged (Run σ) := ⟨ofLogged⟩

instance : MonadLift (Except Fault) (Run σ) := ⟨fun x => ofLogged (.ofChecked x)⟩

/-- Stop with a fault, keeping the state. -/
def fault (f : Fault) : Run σ α := fun _ s => ⟨[], s, .error f⟩

/-- Leave one notice. -/
def note (level : Level) (text : Unit → String) : Run σ Unit :=
  ofLogged (.note level text)

/-- Run a computation on a part of the state. -/
def onPart {τ : Type} (part : τ → σ) (put : σ → τ → τ) (x : Run σ α) : Run τ α := fun v t =>
  let y := x v (part t)
  ⟨y.lines, put y.state t, y.value⟩

end Run

end Guillotine
