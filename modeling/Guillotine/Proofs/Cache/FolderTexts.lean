import Guillotine.Proofs.Cache.Failures
import Guillotine.Proofs.Cache.TextStore

/-! A folder as a backend that invents nothing, whatever else is in it. A document that is written
shows up under its own name only, and its temporary file under no name of a document, even where it
cannot take its place. So the text that is read under a key of a service was put there under that
key: these keys have names of their own. -/
namespace Guillotine

theorem IsTextKey.tidy {key : String} (h : IsTextKey key) : FolderStore.Tidy key := by
  cases h with
  | result hd => exact hd.tidy_resultKey
  | entry hd => exact hd.tidy_entryKey

namespace FolderStore

variable {f : FolderStore} {d : Disk} {l : Location} {stem other text found key k t : String}
  {now : Moment} {ttl : UInt64}

/-! ### Where paths lead -/

/-- The path of a document leads to its name, if it leads anywhere. -/
theorem exists_of_locate_path (hstem : ∀ c ∈ stem.toList, isPlainChar c = true)
    (h : d.locate (f.path stem) = .ok l) : ∃ k, l = k ++ [stem ++ ".json"] := by
  obtain ⟨-, -, k, -, rfl⟩ := (Disk.locate_join_iff (single_document hstem)).1 h
  exact ⟨k, rfl⟩

/-- The path of a temporary file leads to no document, whatever tells the temporary files apart. -/
theorem not_locate_temporaryPath {path : String} (hstem : ∀ c ∈ stem.toList, isPlainChar c = true)
    (h : d.locate (f.temporaryPath path) = .ok l) : d.locate (f.path stem) ≠ .ok l := by
  obtain ⟨front, hfront⟩ : ∃ front, f.temporaryPath path = front ++ ".tmp" := by
    have hname (a b : String) (n : Nat) :
        Stem.temporary a b n = a ++ "." ++ b ++ "." ++ toString n ++ ".tmp" := by
      simp [Stem.temporary_eq, String.append_assoc]
    show ∃ front, Path.join f.folder (Stem.temporary _ _ _) = _
    rw [hname]
    unfold Path.join
    split_ifs
    · exact ⟨_, rfl⟩
    · exact ⟨_, (String.append_assoc ..).symm⟩
    · exact ⟨_, (String.append_assoc ..).symm⟩
  obtain ⟨folder, name, hjoin, hsingle⟩ :=
    Path.exists_join_append front ".tmp" (by simp) (by simp)
  rw [hfront, hjoin] at h
  obtain ⟨-, -, j, -, rfl⟩ := (Disk.locate_join_iff hsingle).1 h
  intro hdocument
  obtain ⟨k, hk⟩ := exists_of_locate_path hstem hdocument
  have hlast := congrArg (fun s => s.toList.reverse.head?)
    (List.singleton_inj.1 (List.append_inj' hk rfl).2)
  simp at hlast

/-! ### Documents -/

/-- A text is read from the document with a stem. -/
def Reads (f : FolderStore) (stem text : String) : Prop := f.disk.readText (f.path stem) = .ok text

theorem readDocument_eq_ok_iff :
    f.readDocument (f.path stem) = .ok (some text) ↔ f.Reads stem text := by
  unfold readDocument Reads
  split <;> simp_all

/-- A document that is written is the only one that may be read anew. -/
theorem reads_writeDocument (hstem : ∀ c ∈ stem.toList, isPlainChar c = true)
    (hother : ∀ c ∈ other.toList, isPlainChar c = true)
    (h : (f.writeDocument (f.path stem) text).1.Reads other found) :
    f.Reads other found ∨ other = stem ∧ found = text := by
  unfold writeDocument at h
  dsimp only at h
  split at h
  next => exact .inl h
  next d hwrite =>
    obtain ⟨j, hwritten⟩ := Disk.exists_written hwrite
    have hfirst : d.readText (f.path other) = .ok found → f.Reads other found := by
      intro hread
      refine (hwritten.reads hread).resolve_right fun hnew => ?_
      exact not_locate_temporaryPath hother hwritten.leads hnew.1
    split at h
    next d' hrename =>
      obtain ⟨k, l, bytes, hrenamed⟩ := Disk.exists_renamed hrename
      rcases hrenamed.reads h with hread | ⟨hlocate, hbytes⟩
      · exact .inl (hfirst hread)
      · right
        -- Both documents are at one place, and the temporary file was moved there.
        obtain ⟨a, ha⟩ := exists_of_locate_path hother hlocate
        obtain ⟨b, hb⟩ := exists_of_locate_path hstem hrenamed.target
        have hname := List.singleton_inj.1 (List.append_inj' (ha.symm.trans hb) rfl).2
        have hplace : k = j := Except.ok.inj (hrenamed.source.symm.trans hwritten.locate)
        have hfile := (hwritten.at? k).symm.trans hrenamed.file
        rw [if_pos hplace, ← hbytes] at hfile
        exact ⟨(String.append_left_inj _).1 hname,
          (String.toByteArray_inj.1 (Node.file.inj (Option.some.inj hfile))).symm⟩
    next => exact .inl (hfirst h)

/-- Where a document is removed, none may be read anew. -/
theorem reads_removeDocument {path : String} (h : (f.removeDocument path).1.Reads other found) :
    f.Reads other found := by
  unfold removeDocument at h
  split at h
  next d hremove =>
    obtain ⟨l, hremoved⟩ := Disk.exists_removed hremove
    exact hremoved.reads h
  next => exact h
  next => exact h

/-! ### Texts -/

theorem stored?_eq_some_iff {stored : StoredValue} : f.stored? key = .ok (some stored) ↔
    ∃ document, f.Reads (sanitize key) document ∧ read? document = some stored := by
  unfold stored?
  rw [bind_eq_ok_iff]
  constructor
  · rintro ⟨text?, hread, h⟩
    cases text? with
    | none => cases h
    | some text =>
      refine ⟨text, readDocument_eq_ok_iff.1 hread, ?_⟩
      dsimp only at h
      split at h
      next heq => rw [heq, Option.some.inj (Except.ok.inj h)]
      next => cases h
  · rintro ⟨document, hreads, hread⟩
    refine ⟨some document, readDocument_eq_ok_iff.2 hreads, ?_⟩
    dsimp only
    rw [hread]
    rfl

/-- Whether a text is kept under a key, be its time over or not. -/
def Has (f : FolderStore) (key text : String) : Prop :=
  ∃ stored : StoredValue, f.stored? key = .ok (some stored) ∧ stored.value = text

/-- A text is still kept where its document may be read. -/
theorem Has.of_reads {f' : FolderStore} (h : f'.Has k t)
    (hreads : ∀ found, f'.Reads (sanitize k) found → f.Reads (sanitize k) found) : f.Has k t := by
  obtain ⟨stored, hstored, ht⟩ := h
  obtain ⟨document, hdocument, hread⟩ := stored?_eq_some_iff.1 hstored
  exact ⟨stored, stored?_eq_some_iff.2 ⟨document, hreads document hdocument, hread⟩, ht⟩

theorem get_has (v : Verbosity)
    (h : ((Backend.get now key : Caching FolderStore _).run v f).state.Has k t) : f.Has k t := by
  rcases get_cases now key v f with ⟨hstate, -⟩ | ⟨hstate, -⟩
  · rwa [hstate] at h
  · rw [hstate] at h
    exact h.of_reads fun _ => reads_removeDocument

/-- Keys of letters, digits and colons have documents of their own. -/
theorem has_setValue (hkey : Tidy key) (hk : Tidy k) (h : (f.setValue now key text ttl).1.Has k t) :
    f.Has k t ∨ k = key ∧ t = text := by
  unfold setValue at h
  split at h
  next => exact .inl h
  next expiry hexpiry =>
    obtain ⟨stored, hstored, rfl⟩ := h
    obtain ⟨document, hdocument, hread⟩ := stored?_eq_some_iff.1 hstored
    rcases reads_writeDocument (isPlainChar_sanitize key) (isPlainChar_sanitize k) hdocument with
      hold | ⟨hstem, rfl⟩
    · exact .inl ⟨stored, stored?_eq_some_iff.2 ⟨document, hold, hread⟩, rfl⟩
    · rw [StoredValue.read?_write (expiry?_eq_some hexpiry).2] at hread
      exact .inr ⟨hk.sanitize_inj hkey hstem, by rw [← Option.some.inj hread]⟩

/-- What is written to the document of a set concerns no text. -/
theorem has_writeSet (set text : String) (hk : Tidy k)
    (h : (f.writeDocument (f.setPath set) text).1.Has k t) : f.Has k t := by
  rw [setPath_eq] at h
  refine h.of_reads fun found hreads => ?_
  rcases reads_writeDocument (isPlainChar_setStem set) (isPlainChar_sanitize k) hreads with
    hold | ⟨hstem, -⟩
  · exact hold
  · exact absurd hstem hk.sanitize_ne_setStem

theorem has_insertScored (set : String) (score : Float) (member : String) (hk : Tidy k)
    (h : (f.insertScored set score member).1.Has k t) : f.Has k t := by
  unfold insertScored at h
  split at h
  · exact h
  · split at h
    · exact h
    · exact has_writeSet _ _ hk h

theorem has_removeScored (set : String) (low high : Float) (hk : Tidy k)
    (h : (f.removeScored set low high).1.Has k t) : f.Has k t := by
  unfold removeScored at h
  split at h
  · exact h
  · split at h
    · exact h
    next s hs =>
      dsimp only at h
      split at h
      · exact h
      · refine has_writeSet set (write (s.outside low high)) hk ?_
        split at h
        next heq => rwa [heq]
        next heq => rwa [heq]

theorem has_ranked (set : String) (start stop : UInt64) (h : (f.ranked set start stop).1.Has k t) :
    f.Has k t := by
  unfold ranked at h
  repeat' split at h
  all_goals exact h

/-- Putting a text into a folder is no fault, whatever its time to live: without a point in time at
which it ends, it is not put. -/
theorem lasts (now : Moment) (ttl : UInt64) : Backend.Lasts FolderStore now ttl :=
  fun _ _ _ _ _ => nofun

instance : TextStore FolderStore where
  Has := Has
  get_has _ _ h := get_has _ h
  get_found {f v now key t} _ h := by
    rcases get_cases now key v f with ⟨-, found, hvalue, hfound⟩ | ⟨-, hvalue⟩
    · exact hfound t (Except.ok.inj (hvalue.symm.trans h))
    · cases hvalue.symm.trans h
  get_returns {f v now key _} _ h := by
    rcases get_cases now key v f with ⟨-, _, hvalue, -⟩ | ⟨-, hvalue⟩ <;>
      cases hvalue.symm.trans h
  set_has hkey hk := has_setValue hkey.tidy hk.tidy
  set_fault _ _ h := absurd h (lasts _ _ _ _ _ _ _)
  set_done _ _ := lasts _ _
  insertScored_has hk := has_insertScored _ _ _ hk.tidy
  insertScored_returns := nofun
  removeScored_has {_ _ low high _ _} hk := has_removeScored Results.indexKey low high hk.tidy
  removeScored_returns := nofun
  ranked_has _ := has_ranked _ _ _

/-- Where a folder is empty, no text is kept. -/
theorem not_has_of_empty (hplace : f.disk.Place f.folder l)
    (hempty : ∀ name, f.disk.at? (l ++ [name]) = none) : ¬ f.Has k t := by
  rintro ⟨stored, hstored, -⟩
  obtain ⟨document, hdocument, -⟩ := stored?_eq_some_iff.1 hstored
  obtain ⟨j, hj, hfile⟩ := Disk.readText_eq_ok_iff.1 hdocument
  have hsingle := single_document (isPlainChar_sanitize k)
  obtain ⟨-, -, a, ha, rfl⟩ := (Disk.locate_join_iff hsingle).1 hj
  obtain rfl : a = l := Except.ok.inj (ha.leads.symm.trans hplace.leads)
  rw [hempty] at hfile
  cases hfile

end FolderStore

end Guillotine
