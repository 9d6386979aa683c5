import Guillotine.Cache.Backend

/-! A backend under observation. Every call of a cache is written down, and may be refused before
it reaches the backend behind; what is refused changes nothing there. -/
namespace Guillotine

/-- A call to a backend. -/
inductive BackendCall where
  | get (key : String)
  | set (key : String) (ttl : UInt64)
  | insertScored (set : String) (score : Float) (member : String)
  | ranked (set : String) (start stop : UInt64)
  | removeScored (set : String) (low high : Float)
  | delete (key : String)

/-- Whether a call only asks. -/
def BackendCall.isRead : BackendCall → Bool
  | get _ => true
  | ranked .. => true
  | _ => false

structure Monitored (σ : Type) where
  behind : σ
  /-- The calls so far, the latest first. -/
  calls : List BackendCall
  /-- Whether a call is refused after the calls so far. -/
  refuses : List BackendCall → BackendCall → Bool

namespace Monitored

variable {σ α : Type}

/-- A backend all of whose calls go through. -/
def ofBackend (behind : σ) : Monitored σ := ⟨behind, [], fun _ _ => false⟩

/-- Go on behind the observation. -/
def onBehind (x : Run σ α) : Run (Monitored σ) α :=
  x.onPart Monitored.behind fun behind m => { m with behind }

/-- Write a call down, and refuse it or let it through. -/
def call (c : BackendCall) (x : Caching σ α) : Caching (Monitored σ) α := do
  let m ← getThe (Monitored σ)
  set { m with calls := c :: m.calls }
  if m.refuses m.calls c then throw (.unavailable .refused)
  else ExceptT.mk (onBehind x.run)

instance [Backend σ] : Backend (Monitored σ) where
  get now key := call (.get key) (Backend.get now key)
  set now key value ttl := call (.set key ttl) (Backend.set now key value ttl)
  insertScored set score member :=
    call (.insertScored set score member) (Backend.insertScored set score member)
  ranked set start stop := call (.ranked set start stop) (Backend.ranked set start stop)
  removeScored set low high :=
    call (.removeScored set low high) (Backend.removeScored set low high)
  delete key := call (.delete key) (Backend.delete key)

end Monitored

end Guillotine
