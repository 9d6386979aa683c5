import Guillotine.Cache.Backend
import Guillotine.Cache.ScoredSet
import Guillotine.Documents.Timestamp
import Guillotine.Files.Path

/-! A backend in a folder, with one document per text and one per set. A document is written to a
temporary file first, which then takes the place of the old one, so nobody ever reads half of it. -/
namespace Guillotine

/-- A stored text, and the point in time when its time is over. -/
structure StoredValue where
  value : String
  expiry : Timestamp
deriving DecidableEq, Repr

instance : ToJson StoredValue where
  toJson s := .record [("value", toJson s.value), ("expires_at", toJson s.expiry)]

instance : OfJson StoredValue where
  ofJson? j := do
    let f ← j.fields? ["value", "expires_at"]
    return ⟨← f.required "value", ← f.required "expires_at"⟩

/-- A set is an object with its members as keys, in order. -/
instance : ToJson ScoredSet where
  toJson s :=
    let entries := s.entries.mergeSort fun a b => (compare a.1 b.1).isLE
    .record (entries.map fun (member, score) => (member, toJson score))

/-- Of repeated keys the last one counts. -/
instance : OfJson ScoredSet where
  ofJson?
    | .object members => do
      let entries ← members.mapM fun (k, j) => do
        let score : Float ← ofJson? j
        return (← k, score)
      return Table.ofList entries
    | _ => none

structure FolderStore where
  disk : Disk
  folder : String
  /-- Whether a fault left a set in the middle of a change. -/
  blocked : Bool
  /-- What tells the temporary files of this program from those of others. -/
  writer : String
  /-- How many temporary files have been begun, counted with 64 bits. -/
  begun : Nat

namespace FolderStore

/-- A key as a file name: whatever is not a letter, a digit, a hyphen or an underscore becomes an
underscore. -/
def sanitize (key : String) : String :=
  key.map fun c => if c.isAlphanum || c == '-' || c == '_' then c else '_'

def valuePath (f : FolderStore) (key : String) : String :=
  Path.join f.folder (sanitize key ++ ".json")

def setPath (f : FolderStore) (set : String) : String :=
  Path.join f.folder (sanitize set ++ ".zset.json")

/-- Open a folder, making it if it is not there. -/
def opened (disk : Disk) (folder writer : String) (begun : Nat) :
    Disk × Except FileError FolderStore :=
  match disk.makeFolders folder with
  | (disk, .ok ()) => (disk, .ok ⟨disk, folder, false, writer, begun⟩)
  | (disk, .error e) => (disk, .error e)

/-! ### Documents -/

/-- The path of the next temporary file for a document. -/
def temporaryPath (f : FolderStore) (path : String) : String :=
  let name := (Path.lastName? path).getD ""
  Path.join f.folder
    (String.join [Path.withoutEnding name, ".", f.writer, ".", toString f.begun, ".tmp"])

/-- Write a document by way of a temporary file, which stays where it cannot take the place of the
old document. -/
def writeDocument (f : FolderStore) (path text : String) : FolderStore × Except CacheError Unit :=
  let temporary := f.temporaryPath path
  let f := { f with begun := (f.begun + 1) % UInt64.size }
  match f.disk.writeText temporary text with
  | .error e => (f, .error (.file e))
  | .ok disk =>
    match disk.renameFile temporary path with
    | .ok disk => ({ f with disk }, .ok ())
    | .error e => ({ f with disk }, .error (.file e))

/-- The text of a document, if it is there. -/
def readDocument (f : FolderStore) (path : String) : Except CacheError (Option String) :=
  match f.disk.readText path with
  | .ok text => .ok (some text)
  | .error .notFound => .ok none
  | .error e => .error (.file e)

/-- Remove a document if it is there. -/
def removeDocument (f : FolderStore) (path : String) : FolderStore × Except CacheError Unit :=
  match f.disk.removeFile path with
  | .ok disk => ({ f with disk }, .ok ())
  | .error .notFound => (f, .ok ())
  | .error e => (f, .error (.file e))

/-! ### Texts -/

/-- The point in time after `ttl` seconds, if there is one. -/
def expiry? (now : Moment) (ttl : UInt64) : Option Timestamp :=
  let t : Timestamp := ⟨now.wall.nanoseconds + ttl.toNat * Timestamp.nanosPerSecond⟩
  if t.inRange then some t else none

/-- The document under a key, if there is one. -/
def stored? (f : FolderStore) (key : String) : Except CacheError (Option StoredValue) := do
  match ← f.readDocument (f.valuePath key) with
  | none => return none
  | some text =>
    match read? text with
    | some s => return some s
    | none => throw .malformed

/-- A text whose time is over is removed, if that is possible. -/
def get (now : Moment) (key : String) : Caching FolderStore (Option String) := do
  let f ← getThe FolderStore
  match f.stored? key with
  | .error e => throw e
  | .ok none => return none
  | .ok (some s) =>
    if now.wall.nanoseconds < s.expiry.nanoseconds then return some s.value
    else
      Logged.note .debug fun _ =>
        String.join ["[FILE CACHE] ", key, " expired at ", s.expiry.text]
      set (f.removeDocument (f.valuePath key)).1
      return none

def setValue (f : FolderStore) (now : Moment) (key value : String) (ttl : UInt64) :
    FolderStore × Except CacheError Unit :=
  match expiry? now ttl with
  | none => (f, .error (.unavailable .endlessTtl))
  | some expiry => f.writeDocument (f.valuePath key) (write (⟨value, expiry⟩ : StoredValue))

/-! ### Sets -/

/-- The set under a key; an absent one is empty. -/
def members (f : FolderStore) (set : String) : Except CacheError ScoredSet := do
  match ← f.readDocument (f.setPath set) with
  | none => return .empty
  | some text =>
    match read? text with
    | some s => return s
    | none => throw .malformed

def insertScored (f : FolderStore) (set : String) (score : Float) (member : String) :
    FolderStore × Except CacheError Unit :=
  if f.blocked then (f, .error (.unavailable .folderBlocked))
  else
    match f.members set with
    | .error e => (f, .error e)
    | .ok s => f.writeDocument (f.setPath set) (write (s.insert member score))

def ranked (f : FolderStore) (set : String) (start stop : UInt64) :
    FolderStore × Checked (Except CacheError (List String)) :=
  if f.blocked then (f, .ok (.error (.unavailable .folderBlocked)))
  else if stop < start then (f, .ok (.ok []))
  else
    match f.members set with
    | .error e => (f, .ok (.error e))
    | .ok s =>
      match ScoredSet.slice start stop (s.ranking compareSigned) with
      | .ok members => (f, .ok (.ok members))
      | .error fault => ({ f with blocked := true }, .error fault)

/-- A set of which nothing is removed is not written. -/
def removeScored (f : FolderStore) (set : String) (low high : Float) :
    FolderStore × Except CacheError Nat :=
  if f.blocked then (f, .error (.unavailable .folderBlocked))
  else
    match f.members set with
    | .error e => (f, .error e)
    | .ok s =>
      let rest := s.outside low high
      let removed := s.size - rest.size
      if removed = 0 then (f, .ok 0)
      else
        match f.writeDocument (f.setPath set) (write rest) with
        | (f, .ok ()) => (f, .ok removed)
        | (f, .error e) => (f, .error e)

/-- The text is removed first, and the set only if that went well. -/
def delete (f : FolderStore) (key : String) : FolderStore × Except CacheError Unit :=
  match f.removeDocument (f.valuePath key) with
  | (f, .ok ()) => f.removeDocument (f.setPath key)
  | (f, .error e) => (f, .error e)

instance : Backend FolderStore where
  get := get
  set now key value ttl := .ofSafeStep fun f => f.setValue now key value ttl
  insertScored set score member := .ofSafeStep fun f => f.insertScored set score member
  ranked set start stop := .ofStep fun f => f.ranked set start stop
  removeScored set low high := .ofSafeStep fun f => f.removeScored set low high
  delete key := .ofSafeStep fun f => f.delete key

end FolderStore

end Guillotine
