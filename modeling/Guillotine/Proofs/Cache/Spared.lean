import Guillotine.Cache.Storage
import Guillotine.Proofs.Cache.Composed
import Guillotine.Proofs.Cache.Failures

/-! What a cache leaves alone. The documents of a service, and their temporary files, have names
that begin with the letter o. Whatever becomes of the calls, all folders stay where they are, and so
does every file whose name begins with another letter. -/
namespace Guillotine

open Guillotine.Path (Single join)
open Run (Preserves)

/-- Whether a key or a name begins like those of a service. -/
def IsServiceName (name : String) : Prop := name.toList.head? = some 'o'

instance (name : String) : Decidable (IsServiceName name) :=
  inferInstanceAs (Decidable (_ = _))

theorem isServiceName_append {name : String} (h : IsServiceName name) (ending : String) :
    IsServiceName (name ++ ending) := by
  unfold IsServiceName at h ⊢
  rw [String.toList_append, List.head?_append, h, Option.some_or]

variable {p : String → Prop}

namespace FolderStore

variable {f f' : FolderStore} {stem text key : String}

theorem isServiceName_sanitize (h : IsServiceName key) : IsServiceName (sanitize key) := by
  unfold IsServiceName at h ⊢
  rw [toList_sanitize, List.head?_map, h]
  decide

theorem isServiceName_setStem (h : IsServiceName key) : IsServiceName (setStem key) :=
  isServiceName_append (isServiceName_sanitize h) _

theorem isServiceName_temporaryName (h : IsServiceName stem) :
    IsServiceName (f.temporaryName stem) := by
  have hne : stem ≠ "" := by
    rintro rfl
    cases h
  rw [temporaryName, Stem.temporary_eq, front, if_neg hne]
  exact isServiceName_append h _

/-! ### Calls to a folder -/

/-- Whether a store leaves some names on its disk alone, and goes on naming its temporary files in
the same way. -/
structure Spares (p : String → Prop) (f f' : FolderStore) : Prop where
  disk : f.disk.Spares p f'.disk
  writer : f'.writer = f.writer

theorem Spares.refl (p : String → Prop) (f : FolderStore) : f.Spares p f := ⟨.refl _ _, rfl⟩

section Documents

variable (hp : ∀ name, p name → ¬ IsServiceName name) (hnamed : f.Named stem)
  (hstem : IsServiceName stem)
include hp hnamed hstem

theorem spares_writeDocument (text : String) :
    f.Spares p (f.writeDocument (f.path stem) text).1 := by
  have hdocument : ¬ p (stem ++ ".json") := fun h => hp _ h (isServiceName_append hstem _)
  have htemporary : ¬ p (f.temporaryName stem) := fun h =>
    hp _ h (isServiceName_temporaryName hstem)
  unfold writeDocument
  rw [hnamed.temporaryPath]
  dsimp only
  cases hwrite : f.disk.writeText (join f.folder (f.temporaryName stem)) text with
  | error why => exact ⟨.refl _ _, rfl⟩
  | ok d =>
    obtain ⟨l, hwritten⟩ := Disk.exists_written hwrite
    have hspares := hwritten.spares hnamed.single_temporary htemporary
    dsimp only
    cases hrename : d.renameFile (join f.folder (f.temporaryName stem)) (f.path stem) with
    | error why => exact ⟨hspares, rfl⟩
    | ok d' =>
      obtain ⟨k, l, bytes, hrenamed⟩ := Disk.exists_renamed hrename
      exact ⟨hspares.trans (hrenamed.spares hnamed.single_temporary htemporary
        hnamed.single_document hdocument), rfl⟩

theorem spares_removeDocument : f.Spares p (f.removeDocument (f.path stem)).1 := by
  unfold removeDocument
  cases hremove : f.disk.removeFile (f.path stem) with
  | error why => cases why <;> exact .refl p f
  | ok d =>
    obtain ⟨l, hremoved⟩ := Disk.exists_removed hremove
    exact ⟨hremoved.spares hnamed.single_document
      fun h => hp _ h (isServiceName_append hstem _), rfl⟩

end Documents

section Calls

variable (hp : ∀ name, p name → ¬ IsServiceName name)
  (hwriter : ∀ c ∈ f.writer.toList, isPlainChar c = true) (hkey : IsServiceName key)
include hp hwriter hkey

theorem spares_get (v : Verbosity) (now : Moment) :
    f.Spares p ((Backend.get now key : Caching FolderStore _).run v f).state := by
  rcases get_cases now key v f with ⟨hstate, -⟩ | ⟨hstate, -⟩
  · rw [hstate]
    exact .refl p f
  · rw [hstate]
    exact spares_removeDocument hp (.of_key hwriter key) (isServiceName_sanitize hkey)

theorem spares_setValue (now : Moment) (value : String) (ttl : UInt64) :
    f.Spares p (f.setValue now key value ttl).1 := by
  unfold setValue
  split
  · exact .refl p f
  · exact spares_writeDocument hp (.of_key hwriter key) (isServiceName_sanitize hkey) _

theorem spares_insertScored (score : Float) (member : String) :
    f.Spares p (f.insertScored key score member).1 := by
  unfold insertScored
  rw [setPath_eq]
  split
  · exact .refl p f
  · split
    · exact .refl p f
    · exact spares_writeDocument hp (.of_set hwriter key) (isServiceName_setStem hkey) _

theorem spares_removeScored (low high : Float) :
    f.Spares p (f.removeScored key low high).1 := by
  unfold removeScored
  rw [setPath_eq]
  split
  · exact .refl p f
  · split
    · exact .refl p f
    next s hs =>
      dsimp only
      split
      · exact .refl p f
      · have hspares := spares_writeDocument hp (.of_set hwriter key) (isServiceName_setStem hkey)
          (write (s.outside low high))
        split
        next heq => rwa [heq] at hspares
        next heq => rwa [heq] at hspares

end Calls

end FolderStore

/-! ### Calls to a storage -/

namespace Storage

variable {α : Type} {d : Disk} {key : String} {v : Verbosity} {now : Moment}

/-- Whether the names of temporary files are plain, if there are any. -/
def PlainWriter : Storage → Prop
  | inMemory _ _ => True
  | inFolder f => ∀ c ∈ f.writer.toList, isPlainChar c = true

/-- Whether some names of an earlier disk were left alone. -/
structure Spared (p : String → Prop) (d : Disk) (s : Storage) : Prop where
  disk : d.Spares p s.disk
  writer : s.PlainWriter

theorem Spared.refl {s : Storage} (p : String → Prop) (h : s.PlainWriter) : s.Spared p s.disk :=
  ⟨.refl p _, h⟩

theorem disk_withDisk (s : Storage) (d : Disk) : (s.withDisk d).disk = d := by
  cases s <;> rfl

theorem Spared.withDisk {s : Storage} {d' : Disk} (h : s.Spared p d) (hd : s.disk.Spares p d') :
    (s.withDisk d').Spared p d := by
  refine ⟨(disk_withDisk s d').symm ▸ h.disk.trans hd, ?_⟩
  have hwriter := h.writer
  cases s <;> exact hwriter

/-- A storage leaves alone what its folder does. -/
theorem spared_serve {x : Caching MemoryStore α} {y : Caching FolderStore α}
    (hy : ∀ v (f : FolderStore), (∀ c ∈ f.writer.toList, isPlainChar c = true) →
      f.Spares p (y.run v f).state) : Preserves (Spared p d) (serve x y).run := by
  intro v s h
  cases s with
  | inMemory m disk => exact ⟨h.disk, trivial⟩
  | inFolder f =>
    have hspares := hy v f h.writer
    exact ⟨h.disk.trans hspares.disk, fun c hc => h.writer c (hspares.writer ▸ hc)⟩

variable (hp : ∀ name, p name → ¬ IsServiceName name)
include hp

section Calls

variable (hkey : IsServiceName key)
include hkey

theorem spared_get :
    Preserves (Spared p d) (Backend.get now key : Caching Storage _).run :=
  spared_serve fun v _ hwriter => FolderStore.spares_get hp hwriter hkey v now

theorem spared_set (value : String) (ttl : UInt64) :
    Preserves (Spared p d) (Backend.set now key value ttl : Caching Storage _).run :=
  spared_serve fun _ _ hwriter => FolderStore.spares_setValue hp hwriter hkey now value ttl

theorem spared_insertScored (score : Float) (member : String) :
    Preserves (Spared p d) (Backend.insertScored key score member : Caching Storage _).run :=
  spared_serve fun _ _ hwriter => FolderStore.spares_insertScored hp hwriter hkey score member

theorem spared_removeScored (low high : Float) :
    Preserves (Spared p d) (Backend.removeScored key low high : Caching Storage _).run :=
  spared_serve fun _ _ hwriter => FolderStore.spares_removeScored hp hwriter hkey low high

end Calls

/-- Looking for a result leaves other names alone. -/
theorem spared_lookup (digest : RequestDigest) :
    Preserves (Spared p d) (Results.lookup now digest : Run Storage _) := by
  have hkey : IsServiceName digest.resultKey := isServiceName_append (by decide) _
  rw [Results.lookup_eq_fetch]
  exact Results.composed_fetch (Run.composable_preserves _) (spared_get hp hkey) _ _

/-- Keeping a result leaves other names alone. -/
theorem spared_store (ttl : UInt64) (digest : RequestDigest) (report : Report) :
    Preserves (Spared p d) (Results.store now ttl digest report : Run Storage _) := by
  have hresult : IsServiceName digest.resultKey := isServiceName_append (by decide) _
  have hentry : IsServiceName digest.entryKey := isServiceName_append (by decide) _
  have hindex : IsServiceName Results.indexKey := by decide
  exact Results.composed_store (Run.composable_preserves _).congruence
    (spared_set hp hentry _ _) (spared_removeScored hp hindex _ _)
    (spared_insertScored hp hindex _ _) (spared_set hp hresult _ _)

end Storage

end Guillotine
