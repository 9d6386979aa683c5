import Guillotine.Proofs.Cache.FolderStore
import Guillotine.Proofs.Files.Changes

/-! Changes of a folder that fail. What is in the folder is arbitrary here: files and folders may
stand where documents go. A change that fails leaves everything as it was, with two exceptions.
Where a folder takes the place of a document, the temporary file that was to replace it stays
behind; and where the set under a key cannot be removed, the text under the key is gone already. -/
namespace Guillotine

open Guillotine.Path (Single join)

namespace FolderStore

variable {f f' : FolderStore} {l : Location} {stem text key : String}

/-! ### Documents and their temporary files -/

/-- What stands in front in the name of a temporary file. Where a document has no stem, its ending
is taken for one. -/
def front (stem : String) : String := if stem = "" then ".json" else stem

/-- The name of the next temporary file for the document with a stem. -/
def temporaryName (f : FolderStore) (stem : String) : String :=
  Stem.temporary (front stem) f.writer f.begun

/-- Whether a stem and the names of temporary files consist of plain characters. -/
structure Named (f : FolderStore) (stem : String) : Prop where
  stem : ∀ c ∈ stem.toList, isPlainChar c = true
  writer : ∀ c ∈ f.writer.toList, isPlainChar c = true

theorem chars_front (h : ∀ c ∈ stem.toList, isPlainChar c = true) :
    ∀ c ∈ (front stem).toList, isPlainChar c = true := by
  unfold front
  split
  · simp [isPlainChar]
  · exact h

theorem chars_document (h : ∀ c ∈ stem.toList, isPlainChar c = true) :
    ∀ c ∈ (stem ++ ".json").toList, isPlainChar c = true := by
  rw [String.toList_append, List.forall_mem_append]
  exact ⟨h, by simp [isPlainChar]⟩

theorem single_document (h : ∀ c ∈ stem.toList, isPlainChar c = true) :
    Single (stem ++ ".json") := by
  refine single_of_isPlainChar (chars_document h) ?_
  have hlength : ".json".toList.length = 5 := by simp
  rw [String.toList_append, List.length_append, hlength]
  omega

namespace Named

theorem chars_document (h : f.Named stem) : ∀ c ∈ (stem ++ ".json").toList, isPlainChar c = true :=
  FolderStore.chars_document h.stem

theorem single_document (h : f.Named stem) : Single (stem ++ ".json") :=
  FolderStore.single_document h.stem

theorem chars_temporary (h : f.Named stem) :
    ∀ c ∈ (f.temporaryName stem).toList, isPlainChar c = true := by
  simp only [temporaryName, Stem.temporary_eq, String.toList_append, List.forall_mem_append]
  refine ⟨chars_front h.stem, by simp [isPlainChar], h.writer, by simp [isPlainChar],
    fun c hc => isPlainChar_of_mem_toString hc, by simp [isPlainChar]⟩

theorem single_temporary (h : f.Named stem) : Single (f.temporaryName stem) := by
  refine single_of_isPlainChar h.chars_temporary ?_
  have hlength : ".tmp".toList.length = 4 := by simp
  simp only [temporaryName, Stem.temporary_eq, String.toList_append, List.length_append, hlength]
  omega

/-- A document has a shorter name than its temporary file. -/
theorem utf8ByteSize_le (f : FolderStore) (stem : String) :
    (stem ++ ".json").utf8ByteSize ≤ (f.temporaryName stem).utf8ByteSize := by
  have hdot : ".".utf8ByteSize = 1 := by decide
  have hjson : ".json".utf8ByteSize = 5 := by decide
  have htmp : ".tmp".utf8ByteSize = 4 := by decide
  have hfront : stem.utf8ByteSize ≤ (front stem).utf8ByteSize := by
    unfold front
    split
    next hempty => simp [hempty]
    next => exact Nat.le_refl _
  simp only [temporaryName, Stem.temporary_eq, String.utf8ByteSize_append, hdot, hjson, htmp]
  omega

theorem withoutEnding_document (stem : String) :
    Path.withoutEnding (stem ++ ".json") = front stem := by
  unfold front
  split
  next hempty =>
    subst hempty
    decide
  next hne =>
    have hname : stem ++ ".json" = stem ++ "." ++ "json" := by
      rw [String.append_assoc]
      rfl
    rw [hname, Path.withoutEnding_append hne (by simp)]

theorem temporaryPath (h : f.Named stem) :
    f.temporaryPath (f.path stem) = join f.folder (f.temporaryName stem) := by
  unfold FolderStore.temporaryPath path
  rw [Path.lastName?_join f.folder h.single_document, Option.getD_some]
  dsimp only
  rw [withoutEnding_document]
  rfl

end Named

/-! ### Writing a document -/

/-- The temporary file of a document stays behind in the folder at `l`, and nothing else changes: a
folder is in the place of the document. -/
structure Strands (f : FolderStore) (stem text : String) (l : Location) (f' : FolderStore) :
    Prop where
  enters : f.disk.Enters f.folder l
  obstacle : f.disk.at? (l ++ [stem ++ ".json"]) = some .folder
  at? : ∀ k, f'.disk.at? k =
    if k = l ++ [f.temporaryName stem] then some (.file text.toUTF8) else f.disk.at? k

/-- Where the path of the temporary file leads into a folder, the path of the document does. -/
theorem Named.locate_document (h : f.Named stem) {d : Disk}
    (hl : d.locate (join f.folder (f.temporaryName stem)) = .ok (l ++ [f.temporaryName stem])) :
    d.locate (f.path stem) = .ok (l ++ [stem ++ ".json"]) := by
  have hzero : '\x00' ∉ (stem ++ ".json").toList := fun hmem =>
    absurd (h.chars_document _ hmem) (by decide)
  have hsibling := Disk.locate_sibling h.single_temporary h.single_document hzero
    (Named.utf8ByteSize_le f stem) hl
  rwa [List.dropLast_concat] at hsibling

section Written

variable {d : Disk}
  (hwritten : f.disk.Written (join f.folder (f.temporaryName stem)) text
    (l ++ [f.temporaryName stem]) d)
include hwritten

theorem at?_document :
    d.at? (l ++ [stem ++ ".json"]) = f.disk.at? (l ++ [stem ++ ".json"]) := by
  refine (hwritten.at? _).trans (if_neg fun heq => ?_)
  exact Stem.temporary_ne_document (List.singleton_inj.1 (List.append_cancel_left heq)).symm

variable (h : f.Named stem)
include h

/-- A folder in the place of a document stops it, but its temporary file is there already. -/
theorem writeDocument_obstructed
    (hobstacle : f.disk.at? (l ++ [stem ++ ".json"]) = some .folder) :
    f.writeDocument (f.path stem) text =
      ({ f with disk := d, begun := (f.begun + 1) % UInt64.size }, .error (.file .isFolder)) := by
  unfold FolderStore.writeDocument
  rw [h.temporaryPath]
  dsimp only
  rw [hwritten.writeText]
  dsimp only
  rw [Disk.renameFile_of_folder hwritten.locate (h.locate_document hwritten.locate)
    ((hwritten.at? _).trans (if_pos rfl)) ((at?_document hwritten).trans hobstacle)]

/-- Anything else in its place is replaced. -/
theorem writeDocument_free
    (hfree : f.disk.at? (l ++ [stem ++ ".json"]) ≠ some .folder) :
    (f.writeDocument (f.path stem) text).2 = .ok () := by
  unfold FolderStore.writeDocument
  rw [h.temporaryPath]
  dsimp only
  rw [hwritten.writeText]
  dsimp only
  rw [Disk.renamed_of_file hwritten.locate (h.locate_document hwritten.locate)
    ((hwritten.at? _).trans (if_pos rfl)) (at?_document hwritten ▸ hfree)]

end Written

/-- A document that is not written leaves nothing behind, or its temporary file. -/
theorem Named.writeDocument (h : f.Named stem) {e : CacheError}
    (hfails : f.writeDocument (f.path stem) text = (f', .error e)) :
    f'.disk = f.disk ∨ ∃ l, f.Strands stem text l f' := by
  cases hwrite : f.disk.writeText (join f.folder (f.temporaryName stem)) text with
  | error why =>
    unfold FolderStore.writeDocument at hfails
    rw [h.temporaryPath] at hfails
    dsimp only at hfails
    rw [hwrite] at hfails
    obtain ⟨rfl, -⟩ := Prod.mk.inj hfails
    exact .inl rfl
  | ok d =>
    obtain ⟨k, hwritten⟩ := Disk.exists_written hwrite
    obtain ⟨-, -, l, henters, rfl⟩ := (Disk.locate_join_iff h.single_temporary).1 hwritten.leads
    by_cases hobstacle : f.disk.at? (l ++ [stem ++ ".json"]) = some .folder
    · rw [writeDocument_obstructed hwritten h hobstacle] at hfails
      obtain ⟨rfl, -⟩ := Prod.mk.inj hfails
      exact .inr ⟨l, henters, hobstacle, hwritten.at?⟩
    · have hends := writeDocument_free hwritten h hobstacle
      rw [hfails] at hends
      cases hends

/-! ### Removing a document -/

/-- The text under a key is removed from the folder at `l`, and nothing else changes: the set under
the key cannot be removed, since a folder is in its place or its path is too long. -/
structure Halves (f : FolderStore) (key : String) (l : Location) (f' : FolderStore) : Prop where
  enters : f.disk.Enters f.folder l
  text : ∃ bytes, f.disk.at? (l ++ [sanitize key ++ ".json"]) = some (.file bytes)
  obstacle : f.disk.at? (l ++ [setStem key ++ ".json"]) = some .folder ∨
    Disk.maxNameSize < (setStem key ++ ".json").utf8ByteSize ∨
    Disk.maxPathSize < (f.path (setStem key)).utf8ByteSize
  at? : ∀ k, f'.disk.at? k =
    if k = l ++ [sanitize key ++ ".json"] then none else f.disk.at? k

theorem isPlainChar_sanitize (key : String) :
    ∀ c ∈ (sanitize key).toList, isPlainChar c = true := by
  rw [toList_sanitize]
  intro c hc
  obtain ⟨b, -, rfl⟩ := List.mem_map.1 hc
  split
  next hb => exact Bool.or_eq_true_iff.2 (.inl hb)
  next => decide

theorem isPlainChar_setStem (set : String) : ∀ c ∈ (setStem set).toList, isPlainChar c = true := by
  rw [setStem, String.toList_append, List.forall_mem_append]
  exact ⟨isPlainChar_sanitize set, by simp [isPlainChar]⟩

theorem Named.of_key (hwriter : ∀ c ∈ f.writer.toList, isPlainChar c = true) (key : String) :
    f.Named (sanitize key) := ⟨isPlainChar_sanitize key, hwriter⟩

theorem Named.of_set (hwriter : ∀ c ∈ f.writer.toList, isPlainChar c = true) (set : String) :
    f.Named (setStem set) := ⟨isPlainChar_setStem set, hwriter⟩

/-- Removing a document fails without a change. -/
theorem removeDocument_fails {path : String} {e : CacheError}
    (h : f.removeDocument path = (f', .error e)) : f' = f := by
  unfold removeDocument at h
  split at h <;> simp_all

/-- A document that is removed was a file, or was not there. -/
theorem removeDocument_ends {path : String} (h : f.removeDocument path = (f', .ok ())) :
    f' = f ∨ ∃ l d, f.disk.Removed path l d ∧ f' = { f with disk := d } := by
  unfold removeDocument at h
  split at h
  next d hremove =>
    obtain ⟨l, hremoved⟩ := Disk.exists_removed hremove
    exact .inr ⟨l, d, hremoved, (Prod.mk.inj h).1.symm⟩
  next => exact .inl (Prod.mk.inj h).1.symm
  next => cases (Prod.mk.inj h).2

/-- A document is removed wherever there is no folder. -/
theorem removeDocument_of_free {path : String} (hl : f.disk.locate path = .ok l)
    (hfree : f.disk.at? l ≠ some .folder) : (f.removeDocument path).2 = .ok () := by
  unfold removeDocument
  rcases Disk.removeFile_of_free hl hfree with hremove | hremove <;> rw [hremove]

/-- A set that is not removed after the text under its key has an obstacle in its place, or no
path. -/
theorem halves_of_removed (hwriter : ∀ c ∈ f.writer.toList, isPlainChar c = true) {d : Disk}
    {e : CacheError} (hremoved : f.disk.Removed (f.path (sanitize key)) l d)
    (hfails : ({ f with disk := d } : FolderStore).removeDocument (f.setPath key) =
      (f', .error e)) :
    ∃ l, f.Halves key l { f with disk := d } := by
  have hkey := (Named.of_key hwriter key).single_document
  have hset := (Named.of_set hwriter key).single_document
  obtain ⟨-, -, l, henters, rfl⟩ := (Disk.locate_join_iff hkey).1 hremoved.leads
  refine ⟨l, henters, hremoved.file, ?_, hremoved.at?⟩
  by_contra hfree
  simp only [not_or, Nat.not_lt] at hfree
  obtain ⟨hfree, hname, hpath⟩ := hfree
  have hzero : '\x00' ∉ (setStem key ++ ".json").toList := fun hmem =>
    absurd ((Named.of_set hwriter key).chars_document _ hmem) (by decide)
  have hlocate := hremoved.keeps.locate
    (Disk.locate_beside hkey hset hzero hname hpath hremoved.leads)
  rw [List.dropLast_concat] at hlocate
  have hfree : d.at? (l ++ [setStem key ++ ".json"]) ≠ some .folder := by
    rw [hremoved.at?]
    split
    · nofun
    · exact hfree
  change d.locate (f.path (setStem key)) = _ at hlocate
  rw [← setPath_eq] at hlocate
  have hends := removeDocument_of_free (f := { f with disk := d }) hlocate hfree
  rw [hfails] at hends
  cases hends

/-- A text and a set that are not both removed are still there, or the text is gone. -/
theorem delete_fails (hwriter : ∀ c ∈ f.writer.toList, isPlainChar c = true) {e : CacheError}
    (hfails : f.delete key = (f', .error e)) : f'.disk = f.disk ∨ ∃ l, f.Halves key l f' := by
  unfold delete at hfails
  split at hfails
  next g hvalue =>
    obtain rfl := removeDocument_fails hfails
    rcases removeDocument_ends hvalue with rfl | ⟨l, d, hremoved, rfl⟩
    · exact .inl rfl
    · exact .inr (halves_of_removed hwriter hremoved hfails)
  next g e hvalue =>
    obtain ⟨rfl, -⟩ := Prod.mk.inj hfails
    rw [removeDocument_fails hvalue]
    exact .inl rfl

/-! ### Changes -/

/-- A call that changes what is kept. -/
inductive Change where
  | put (now : Moment) (key value : String) (ttl : UInt64)
  | insertScored (set : String) (score : Float) (member : String)
  | removeScored (set : String) (low high : Float)
  | delete (key : String)

namespace Change

/-- Make a change. How many members were removed does not matter here. -/
def apply (f : FolderStore) : Change → FolderStore × Except CacheError Unit
  | .put now key value ttl => f.setValue now key value ttl
  | .insertScored set score member => f.insertScored set score member
  | .removeScored set low high =>
    let (f, r) := f.removeScored set low high
    (f, r.map fun _ => ())
  | .delete key => f.delete key

/-- Whether a change is to write a text to the document with a stem. -/
def Writes (f : FolderStore) (stem text : String) : Change → Prop
  | .put now key value ttl => stem = sanitize key ∧
    ∃ expiry, expiry? now ttl = some expiry ∧ text = write (⟨value, expiry⟩ : StoredValue)
  | .insertScored set score member => stem = setStem set ∧
    ∃ s, f.members set = .ok s ∧ text = write (s.insert member score)
  | .removeScored set low high => stem = setStem set ∧
    ∃ s, f.members set = .ok s ∧ text = write (s.outside low high)
  | .delete _ => False

end Change

/-- What a change that fails can leave behind: everything as it was, a temporary file that could not
take the place of a document, or one of two things that were to be removed. -/
inductive Leaves (f : FolderStore) : Change → FolderStore → Prop
  | nothing {c : Change} {f' : FolderStore} (h : f'.disk = f.disk) : Leaves f c f'
  | temporary {c : Change} {stem text : String} {l : Location} {f' : FolderStore}
    (hwrites : c.Writes f stem text) (hstrands : f.Strands stem text l f') : Leaves f c f'
  | half {key : String} {l : Location} {f' : FolderStore} (hhalves : f.Halves key l f') :
    Leaves f (.delete key) f'

section Fails

variable {c : Change} {e : CacheError} (hwriter : ∀ c ∈ f.writer.toList, isPlainChar c = true)
include hwriter

theorem leaves_of_writes (hwrites : c.Writes f stem text)
    (h : f.writeDocument (f.path stem) text = (f', .error e)) : f.Leaves c f' := by
  have hnamed : f.Named stem := by
    cases c with
    | put now key value ttl => exact hwrites.1 ▸ .of_key hwriter key
    | insertScored set score member => exact hwrites.1 ▸ .of_set hwriter set
    | removeScored set low high => exact hwrites.1 ▸ .of_set hwriter set
    | delete key => exact hwrites.elim
  rcases hnamed.writeDocument h with hsame | ⟨l, hstrands⟩
  · exact .nothing hsame
  · exact .temporary hwrites hstrands

theorem leaves_setValue {now : Moment} {value : String} {ttl : UInt64}
    (h : f.setValue now key value ttl = (f', .error e)) :
    f.Leaves (.put now key value ttl) f' := by
  unfold setValue at h
  split at h
  next =>
    obtain ⟨rfl, -⟩ := Prod.mk.inj h
    exact .nothing rfl
  next expiry hexpiry => exact leaves_of_writes hwriter ⟨rfl, expiry, hexpiry, rfl⟩ h

theorem leaves_insertScored {set member : String} {score : Float}
    (h : f.insertScored set score member = (f', .error e)) :
    f.Leaves (.insertScored set score member) f' := by
  unfold insertScored at h
  rw [setPath_eq] at h
  split at h
  next =>
    obtain ⟨rfl, -⟩ := Prod.mk.inj h
    exact .nothing rfl
  next =>
    split at h
    next =>
      obtain ⟨rfl, -⟩ := Prod.mk.inj h
      exact .nothing rfl
    next s hs => exact leaves_of_writes hwriter ⟨rfl, s, hs, rfl⟩ h

theorem leaves_removeScored {set : String} {low high : Float}
    (h : f.removeScored set low high = (f', .error e)) :
    f.Leaves (.removeScored set low high) f' := by
  unfold removeScored at h
  rw [setPath_eq] at h
  split at h
  next =>
    obtain ⟨rfl, -⟩ := Prod.mk.inj h
    exact .nothing rfl
  next =>
    split at h
    next =>
      obtain ⟨rfl, -⟩ := Prod.mk.inj h
      exact .nothing rfl
    next s hs =>
      dsimp only at h
      split at h
      · cases h
      next =>
        split at h
        · cases h
        next g why hwrite =>
          obtain ⟨rfl, -⟩ := Prod.mk.inj h
          exact leaves_of_writes hwriter ⟨rfl, s, hs, rfl⟩ hwrite

/-- A change that fails leaves the disk as it was, with two exceptions: a folder is in the place of
a document, or a set is not removed after the text under the same key. -/
theorem leaves_of_fails (h : c.apply f = (f', .error e)) : f.Leaves c f' := by
  cases c with
  | put now key value ttl => exact leaves_setValue hwriter h
  | insertScored set score member => exact leaves_insertScored hwriter h
  | removeScored set low high =>
    simp only [Change.apply] at h
    cases hresult : f.removeScored set low high with
    | mk g r =>
      rw [hresult] at h
      obtain ⟨rfl, hfails⟩ := Prod.mk.inj h
      cases r with
      | ok _ => cases hfails
      | error why => exact leaves_removeScored hwriter hresult
  | delete key =>
    rcases delete_fails hwriter h with hsame | ⟨l, hhalves⟩
    · exact .nothing hsame
    · exact .half hhalves

end Fails

/-- A folder in which another one is in the place of the text under the key k. -/
def obstructed : FolderStore :=
  ⟨⟨.ofList [(["cache"], .folder), (["cache", "k.json"], .folder)], []⟩, "cache", false, "4711", 0⟩

theorem place_obstructed : obstructed.disk.Place "cache" ["cache"] :=
  Disk.place_of_plain (by decide) rfl (by decide)

theorem named_obstructed : obstructed.Named "k" :=
  ⟨by simp [isPlainChar], by simp [obstructed, isPlainChar]⟩

theorem temporaryName_obstructed : obstructed.temporaryName "k" = "k.4711.0.tmp" := by decide

/-- The text under k cannot be written, and its temporary file is left behind. -/
theorem put_obstructed (now : Moment) (value : String) (ttl : UInt64)
    (hends : (expiry? now ttl).isSome) : ∃ f' text,
      (Change.put now "k" value ttl).apply obstructed = (f', .error (.file .isFolder)) ∧
        f'.disk.at? ["cache", "k.4711.0.tmp"] = some (.file text) := by
  have hsanitize : sanitize "k" = "k" := by
    rw [← String.toList_inj, toList_sanitize]
    simp
  have hplain : Path.Plain (obstructed.temporaryName "k") :=
    Stem.plain_temporary ⟨⟨by simp [front, isPlainChar], by decide⟩, by decide⟩
      ⟨by simp [obstructed, isPlainChar], by decide⟩ (by decide)
  obtain ⟨expiry, hexpiry⟩ := Option.isSome_iff_exists.1 hends
  let text := write (⟨value, expiry⟩ : StoredValue)
  have hwritten : obstructed.disk.Written (join "cache" (obstructed.temporaryName "k")) text
      (["cache"] ++ [obstructed.temporaryName "k"]) _ :=
    { leads := place_obstructed.locate hplain
      free := by decide
      around := by decide
      result := rfl }
  have hput : (Change.put now "k" value ttl).apply obstructed =
      obstructed.writeDocument (obstructed.path "k") text := by
    simp only [Change.apply, setValue, hexpiry, valuePath, hsanitize]
    rfl
  refine ⟨_, text.toUTF8,
    hput.trans (writeDocument_obstructed hwritten named_obstructed (by decide)), ?_⟩
  rw [← temporaryName_obstructed]
  exact (hwritten.at? _).trans (if_pos rfl)

/-- A text that is good for a minute. -/
def samplePut : Change := .put ⟨⟨0⟩, 0⟩ "k" "v" 60

theorem leaves_of_fails_obstructed :
    (∀ c ∈ obstructed.writer.toList, isPlainChar c = true) ∧
      ∃ f', samplePut.apply obstructed = (f', .error (.file .isFolder)) ∧
        obstructed.Leaves samplePut f' := by
  obtain ⟨f', text, hfails, -⟩ := put_obstructed ⟨⟨0⟩, 0⟩ "v" 60 rfl
  exact ⟨named_obstructed.writer, f', hfails, leaves_of_fails named_obstructed.writer hfails⟩

/-- Not every change that fails leaves the folder as it was. -/
theorem fails_with_change : ∃ f', samplePut.apply obstructed = (f', .error (.file .isFolder)) ∧
    f'.disk.at? ["cache", "k.4711.0.tmp"] ≠ obstructed.disk.at? ["cache", "k.4711.0.tmp"] := by
  obtain ⟨f', text, hfails, hat⟩ := put_obstructed ⟨⟨0⟩, 0⟩ "v" 60 rfl
  refine ⟨f', hfails, ?_⟩
  have hnone : obstructed.disk.at? ["cache", "k.4711.0.tmp"] = none := by decide
  rw [hat, hnone]
  nofun

end FolderStore

end Guillotine
