import Guillotine.Cache.Backend
import Guillotine.Cache.ScoredSet

/-! A backend in memory. Texts whose time is over are dropped when they are asked for, and all of
them whenever a text is stored. A fault in the middle of a change blocks the part that was being
changed, texts or sets, from then on. -/
namespace Guillotine

/-- A stored text, and the uptime at which its time is over. -/
structure Kept where
  text : String
  deadline : Nat
deriving DecidableEq, Repr

structure MemoryStore where
  values : Table String Kept
  sets : Table String ScoredSet
  valuesBlocked : Bool
  setsBlocked : Bool

namespace MemoryStore

def empty : MemoryStore := ⟨.empty, .empty, false, false⟩

def isLive (now : Moment) (k : Kept) : Bool := now.uptime < k.deadline

/-- The number of texts whose time is not over. -/
def size (m : MemoryStore) (now : Moment) : Nat :=
  if m.valuesBlocked then 0 else (m.values.filter fun _ k => isLive now k).size

/-- The greatest number of whole seconds that an uptime can have. -/
def greatestUptime : Nat := 9223372036854775807

/-- The uptime after `ttl` seconds, if there is one. -/
def deadline (now : Moment) (ttl : UInt64) : Checked Nat :=
  let d := now.uptime + ttl.toNat * Duration.nanosPerSecond
  if d / Duration.nanosPerSecond ≤ greatestUptime then .ok d else .error .deadlineOverflow

def get (m : MemoryStore) (now : Moment) (key : String) :
    MemoryStore × Except CacheError (Option String) :=
  if m.valuesBlocked then (m, .error (.unavailable .memoryBlocked))
  else
    match m.values.get? key with
    | none => (m, .ok none)
    | some k =>
      if isLive now k then (m, .ok (some k.text))
      else ({ m with values := m.values.erase key }, .ok none)

def set (m : MemoryStore) (now : Moment) (key value : String) (ttl : UInt64) :
    MemoryStore × Checked (Except CacheError Unit) :=
  if m.valuesBlocked then (m, .ok (.error (.unavailable .memoryBlocked)))
  else
    let live := m.values.filter fun _ k => isLive now k
    match deadline now ttl with
    | .ok d => ({ m with values := live.insert key ⟨value, d⟩ }, .ok (.ok ()))
    | .error f => ({ m with values := live, valuesBlocked := true }, .error f)

def insertScored (m : MemoryStore) (set : String) (score : Float) (member : String) :
    MemoryStore × Except CacheError Unit :=
  if m.setsBlocked then (m, .error (.unavailable .memoryBlocked))
  else
    let s := (m.sets.get? set).getD .empty
    ({ m with sets := m.sets.insert set (s.insert member score) }, .ok ())

def ranked (m : MemoryStore) (set : String) (start stop : UInt64) :
    MemoryStore × Checked (Except CacheError (List String)) :=
  if m.setsBlocked then (m, .ok (.error (.unavailable .memoryBlocked)))
  else
    match m.sets.get? set with
    | none => (m, .ok (.ok []))
    | some s =>
      if stop < start then (m, .ok (.ok []))
      else
        match ScoredSet.slice start stop (s.ranking compareValues) with
        | .ok members => (m, .ok (.ok members))
        | .error f => ({ m with setsBlocked := true }, .error f)

def removeScored (m : MemoryStore) (set : String) (low high : Float) :
    MemoryStore × Except CacheError Nat :=
  if m.setsBlocked then (m, .error (.unavailable .memoryBlocked))
  else
    match m.sets.get? set with
    | none => (m, .ok 0)
    | some s =>
      let rest := s.outside low high
      ({ m with sets := m.sets.insert set rest }, .ok (s.size - rest.size))

/-- Texts are removed before sets are looked at. -/
def delete (m : MemoryStore) (key : String) : MemoryStore × Except CacheError Unit :=
  if m.valuesBlocked then (m, .error (.unavailable .memoryBlocked))
  else
    let m := { m with values := m.values.erase key }
    if m.setsBlocked then (m, .error (.unavailable .memoryBlocked))
    else ({ m with sets := m.sets.erase key }, .ok ())

instance : Backend MemoryStore where
  get now key := .ofSafeStep fun m => m.get now key
  set now key value ttl := .ofStep fun m => m.set now key value ttl
  insertScored set score member := .ofSafeStep fun m => m.insertScored set score member
  ranked set start stop := .ofStep fun m => m.ranked set start stop
  removeScored set low high := .ofSafeStep fun m => m.removeScored set low high
  delete key := .ofSafeStep fun m => m.delete key

end MemoryStore

end Guillotine
