import Guillotine.Calendar.Timestamp
import Guillotine.Files.Disk
import Guillotine.Journal

/-! Backends of a cache: texts under keys, each for a time, and sets of members with scores. Any
operation may fail, and the caller decides what a failure means. -/
namespace Guillotine

/-- Why a backend does not serve. -/
inductive Outage where
  /-- The memory was left in the middle of a change. -/
  | memoryBlocked
  /-- The folder was left in the middle of a change. -/
  | folderBlocked
  /-- A time to live that ends beyond the last point in time. -/
  | endlessTtl
  | refused
deriving DecidableEq, Repr

inductive CacheError where
  | unavailable (why : Outage)
  | file (why : FileError)
  /-- What is stored is not the expected document. -/
  | malformed
deriving DecidableEq, Repr

def Outage.message : Outage → String
  | memoryBlocked => "memory backend lock poisoned"
  | folderBlocked => "file backend lock poisoned"
  | endlessTtl => "invalid ttl: it ends beyond the last point in time"
  | refused => "connection refused"

def CacheError.message : CacheError → String
  | unavailable why => "cache backend unavailable: " ++ why.message
  | file why => "cache I/O error: " ++ why.message
  | malformed => "malformed cache payload: not the expected document"

/-- A computation on a backend. -/
abbrev Caching (σ : Type) := ExceptT CacheError (Run σ)

namespace Caching

variable {σ α : Type}

/-- A change of state with a result, a failure, or a fault. -/
def ofStep (f : σ → σ × Checked (Except CacheError α)) : Caching σ α :=
  ExceptT.mk fun _ s =>
    let (t, r) := f s
    ⟨[], t, r⟩

/-- A change of state with a result or a failure. -/
def ofSafeStep (f : σ → σ × Except CacheError α) : Caching σ α :=
  ofStep fun s =>
    let (t, r) := f s
    (t, .ok r)

end Caching

/-- What a cache needs of the place where it keeps things. Where time matters, the operation is
told what the clocks show. -/
class Backend (σ : Type) where
  /-- The text under a key, unless it is absent or its time is over. -/
  get : (now : Moment) → (key : String) → Caching σ (Option String)
  /-- Put a text under a key for `ttl` seconds, in place of another one. -/
  set : (now : Moment) → (key value : String) → (ttl : UInt64) → Caching σ Unit
  /-- Put a member into a set, or give it another score. -/
  insertScored : (set : String) → (score : Float) → (member : String) → Caching σ Unit
  /-- The members of a set at the ranks from `start` to `stop`, the highest score first. -/
  ranked : (set : String) → (start stop : UInt64) → Caching σ (List String)
  /-- Remove the members of a set with scores from `low` to `high`. The answer is their number. -/
  removeScored : (set : String) → (low high : Float) → Caching σ Nat
  /-- Remove what is under a key, be it a text or a set. -/
  delete : (key : String) → Caching σ Unit

end Guillotine
