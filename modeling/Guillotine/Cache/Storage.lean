import Guillotine.Cache.FolderStore
import Guillotine.Cache.MemoryStore

/-! Where the program keeps things: files on a disk, and results either in memory or in a folder of
that disk. -/
namespace Guillotine

inductive Storage where
  | inMemory (store : MemoryStore) (disk : Disk)
  | inFolder (store : FolderStore)

namespace Storage

variable {α : Type}

def disk : Storage → Disk
  | inMemory _ d => d
  | inFolder f => f.disk

def withDisk (d : Disk) : Storage → Storage
  | inMemory m _ => inMemory m d
  | inFolder f => inFolder { f with disk := d }

/-- Serve from memory or from the folder. -/
def serve (fromMemory : Caching MemoryStore α) (fromFolder : Caching FolderStore α) :
    Caching Storage α := ExceptT.mk fun v s =>
  match s with
  | inMemory m d =>
    let t := fromMemory.run v m
    ⟨t.lines, inMemory t.state d, t.value⟩
  | inFolder f =>
    let t := fromFolder.run v f
    ⟨t.lines, inFolder t.state, t.value⟩

instance : Backend Storage where
  get now key := serve (Backend.get now key) (Backend.get now key)
  set now key value ttl := serve (Backend.set now key value ttl) (Backend.set now key value ttl)
  insertScored set score member :=
    serve (Backend.insertScored set score member) (Backend.insertScored set score member)
  ranked set start stop := serve (Backend.ranked set start stop) (Backend.ranked set start stop)
  removeScored set low high :=
    serve (Backend.removeScored set low high) (Backend.removeScored set low high)
  delete key := serve (Backend.delete key) (Backend.delete key)

end Storage

end Guillotine
