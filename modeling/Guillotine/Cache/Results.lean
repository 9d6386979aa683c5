import Guillotine.Cache.Backend
import Guillotine.Cache.Entry
import Guillotine.Request.Canonical

/-! Results kept under the digests of their requests. Keeping them is a best effort: a read that
fails counts as finding nothing, and what cannot be written is dropped. Beside each result stands
an entry about it, and an index ranks the digests by the second in which they were kept. -/
namespace Guillotine

namespace Results

variable {σ : Type} [Backend σ]

/-- The set of the digests of all kept results. -/
def indexKey : String := "opt:index"

/-- The outcome of an operation of a backend, whatever it is. -/
def attempt {α : Type} (x : Caching σ α) : Run σ (Except CacheError α) := x.run

/-- The result kept under a digest, if it is there and can be read. -/
def lookup (now : Moment) (d : RequestDigest) : Run σ (Option Report) := do
  match ← attempt (Backend.get now d.resultKey) with
  | .error e =>
    Run.note .warn fun _ => String.join
      ["[CACHE] read of ", d.resultKey, " failed, treating as miss: ", e.message]
    return none
  | .ok none => return none
  | .ok (some text) =>
    match read? text with
    | some r => return some r
    | none =>
      Run.note .warn fun _ => String.join
        ["[CACHE] undecodable entry under ", d.resultKey,
          ", treating as miss: not the expected document"]
      return none

/-- The last second whose results are over at `now`. -/
def cutoff (now : Moment) (ttl : UInt64) : Float :=
  Float.ofInt (max Int64.minValue.toInt (now.wall.seconds - ttl.toNat)) - 1

/-- Write a result, the entry about it, and its place in the index, which is rid of results that
are over. The first failure ends it. -/
def write (now : Moment) (ttl : UInt64) (d : RequestDigest) (r : Report) : Caching σ Unit := do
  Backend.set now d.resultKey (Guillotine.write r) ttl
  Backend.set now d.entryKey (Guillotine.write (⟨d.hex, now.wall, r⟩ : Entry)) ttl
  let trimmed ← Backend.removeScored indexKey (-1 / 0) (cutoff now ttl)
  if 0 < trimmed then
    Logged.note .debug fun _ => String.join
      ["[CACHE] trimmed ", toString trimmed, " expired record(s) from ", indexKey]
  Backend.insertScored indexKey (Float.ofInt now.wall.seconds) d.hex

/-- Keep a result for `ttl` seconds, if that is possible. -/
def store (now : Moment) (ttl : UInt64) (d : RequestDigest) (r : Report) : Run σ Unit := do
  match ← attempt (write now ttl d r) with
  | .ok () =>
    Run.note .debug fun _ => String.join
      ["[CACHE] stored ", d.resultKey, " (ttl ", toString ttl, "s)"]
  | .error e =>
    Run.note .warn fun _ => String.join
      ["[CACHE] failed to store ", d.resultKey, ", dropping: ", e.message]

/-- The document under a key, if it is there and can be read. -/
def document? {α : Type} [OfJson α] (now : Moment) (key : String) : Run σ (Option α) := do
  match ← attempt (Backend.get now key) with
  | .error e =>
    Run.note .warn fun _ => String.join ["[CACHE] read of ", key, " failed: ", e.message]
    return none
  | .ok none => return none
  | .ok (some text) =>
    match read? text with
    | some a => return some a
    | none =>
      Run.note .warn fun _ => String.join
        ["[CACHE] undecodable entry under ", key, ": not the expected document"]
      return none

/-- The entry about a kept result. Where only the result is left, it is made anew. -/
def entryOf? (now : Moment) (d : RequestDigest) : Run σ (Option Entry) := do
  match ← document? now d.entryKey with
  | some e => return some e
  | none =>
    match ← document? now d.resultKey with
    | none => return none
    | some r =>
      Run.note .debug fun _ => "[CACHE] rebuilt metadata entry of " ++ d.hex
      return some ⟨d.hex, now.wall, r⟩

/-- The entries of those digests among some members of the index that are digests and have one. -/
def entries (now : Moment) : List String → Run σ (List Entry)
  | [] => return []
  | member :: members => do
    match RequestDigest.ofHex? member with
    | none => entries now members
    | some d =>
      match ← entryOf? now d with
      | none => entries now members
      | some e => return e :: (← entries now members)

/-- The entries at `limit` places of the index from `offset` on, the latest first. -/
def recent (now : Moment) (offset limit : UInt64) : Run σ (List Entry) := do
  if limit = 0 then return []
  if UInt64.size ≤ offset.toNat + limit.toNat then Run.fault .sumOverflow
  else
    match ← attempt (Backend.ranked indexKey offset (offset + limit - 1)) with
    | .ok members => entries now members
    | .error e =>
      Run.note .warn fun _ => "[CACHE] failed to read the recency index: " ++ e.message
      return []

end Results

end Guillotine
