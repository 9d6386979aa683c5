import Guillotine.Proofs.Files.Disk

/-! Changes of a disk. Where writing, removing or moving a file ends well, what was there before and
what is there now are read off here, whatever the disk holds and wherever the paths lead. None of
them touches a folder, so a path that leads somewhere goes on leading there. -/
namespace Guillotine

namespace Disk

open Guillotine.Path (Single join)

variable {d d' d'' : Disk} {k l : Location}
  {path folder name other source target text found : String} {bytes : ByteArray}

/-! ### Names in one folder -/

/-- Where one name leads into a folder, any name does that is not too long. -/
theorem locate_beside (hname : Single name) (hother : Single other) (hzero : '\x00' ∉ other.toList)
    (hsize : other.utf8ByteSize ≤ maxNameSize)
    (hpath : (join folder other).utf8ByteSize ≤ maxPathSize)
    (h : d.locate (join folder name) = .ok l) :
    d.locate (join folder other) = .ok (l.dropLast ++ [other]) := by
  obtain ⟨hcheck, -, k, hk, rfl⟩ := (locate_join_iff hname).1 h
  rw [checkPath_eq_ok_iff] at hcheck
  refine (locate_join_iff hother).2 ⟨?_, hsize, k, hk, by rw [List.dropLast_concat]⟩
  refine checkPath_eq_ok_iff.2 ⟨fun hmem => ?_, hpath⟩
  rcases Path.mem_join hother hmem with hc | hc | hc
  · exact hcheck.1 (Path.mem_join_of_mem hname hc)
  · exact absurd hc (by decide)
  · exact hzero hc

/-- A name that is not longer than one that leads into a folder leads into it, too. -/
theorem locate_sibling (hname : Single name) (hother : Single other) (hzero : '\x00' ∉ other.toList)
    (hle : other.utf8ByteSize ≤ name.utf8ByteSize) (h : d.locate (join folder name) = .ok l) :
    d.locate (join folder other) = .ok (l.dropLast ++ [other]) := by
  obtain ⟨hcheck, hsize, -⟩ := (locate_join_iff hname).1 h
  exact locate_beside hname hother hzero (hle.trans hsize)
    ((Path.utf8ByteSize_join_mono folder hname hother hle).trans (checkPath_eq_ok_iff.1 hcheck).2) h

/-! ### Folders that stay -/

/-- Whether all folders of a disk are folders of another one. -/
structure Keeps (d d' : Disk) : Prop where
  here : d'.here = d.here
  folders : ∀ k, d.at? k = some .folder → d'.at? k = some .folder

namespace Keeps

theorem refl (d : Disk) : d.Keeps d := ⟨rfl, fun _ h => h⟩

theorem trans (h : d.Keeps d') (h' : d'.Keeps d'') : d.Keeps d'' :=
  ⟨h'.here.trans h.here, fun k hk => h'.folders k (h.folders k hk)⟩

/-- A path goes on leading where it led. -/
theorem locate (h : d.Keeps d') (hl : d.locate path = .ok l) : d'.locate path = .ok l := by
  obtain ⟨hcheck, hne, hleads⟩ := locate_eq_ok_iff.1 hl
  have horigin : d'.origin path = d.origin path := by rw [origin, origin, h.here]
  exact locate_eq_ok_iff.2 ⟨hcheck, hne, horigin ▸ foldlM_step_mono h.folders hleads⟩

end Keeps

theorem ne_nil_of_not_folder (h : d.at? l ≠ some .folder) : l ≠ [] := by
  rintro rfl
  exact h rfl

theorem keeps_insert (h : d.at? l ≠ some .folder) (bytes : ByteArray) :
    d.Keeps (d.insert l (.file bytes)) := by
  refine ⟨rfl, fun k hk => ?_⟩
  rw [at?_insert (ne_nil_of_not_folder h), if_neg fun heq : k = l => h (heq ▸ hk), hk]

theorem keeps_erase (h : d.at? l ≠ some .folder) : d.Keeps (d.erase l) := by
  refine ⟨rfl, fun k hk => ?_⟩
  rw [at?_erase (ne_nil_of_not_folder h), if_neg fun heq : k = l => h (heq ▸ hk), hk]

/-! ### What was done -/

/-- A text was written to a file, which is new or was a file before. -/
structure Written (d : Disk) (path text : String) (l : Location) (d' : Disk) : Prop where
  leads : d.locate path = .ok l
  free : d.at? l ≠ some .folder
  around : d.at? l.dropLast = some .folder
  result : d' = d.insert l (.file text.toUTF8)

theorem exists_written (h : d.writeText path text = .ok d') : ∃ l, d.Written path text l d' := by
  unfold writeText writeBytes at h
  obtain ⟨l, hl, h⟩ := bind_eq_ok_iff.1 h
  refine ⟨l, ?_⟩
  split at h
  · cases h
  next haround hfree => exact ⟨hl, hfree, haround, (Except.ok.inj h).symm⟩
  · cases h
  · cases h

namespace Written

theorem at? (h : d.Written path text l d') (k : Location) :
    d'.at? k = if k = l then some (.file text.toUTF8) else d.at? k := by
  rw [h.result, at?_insert (ne_nil_of_not_folder h.free)]

theorem keeps (h : d.Written path text l d') : d.Keeps d' :=
  h.result ▸ keeps_insert h.free _

/-- No folder is new. -/
theorem kept (h : d.Written path text l d') : d'.Keeps d := by
  refine ⟨by rw [h.result]; rfl, fun k hk => ?_⟩
  rw [h.at?] at hk
  split at hk
  · cases hk
  · exact hk

/-- A text that is read afterwards was there before, or is the one that was written. -/
theorem reads (h : d.Written path text l d') (hread : d'.readText other = .ok found) :
    d.readText other = .ok found ∨ d.locate other = .ok l ∧ found = text := by
  obtain ⟨k, hk, hfile⟩ := readText_eq_ok_iff.1 hread
  have hlocate := h.kept.locate hk
  rw [h.at?] at hfile
  split at hfile
  next heq =>
    have hbytes := Node.file.inj (Option.some.inj hfile)
    exact .inr ⟨heq ▸ hlocate, String.toByteArray_inj.1 hbytes.symm⟩
  next => exact .inl (readText_eq_ok_iff.2 ⟨k, hlocate, hfile⟩)

theorem writeText (h : d.Written path text l d') : d.writeText path text = .ok d' := by
  have hfree := h.free
  unfold Disk.writeText writeBytes
  simp only [h.leads, h.around, h.result, bind, Except.bind]

theorem locate (h : d.Written path text l d') : d'.locate path = .ok l := h.keeps.locate h.leads

end Written

/-- Whether a file can be written at a path. -/
def Writable (d : Disk) (path : String) : Prop :=
  ∃ l, d.locate path = .ok l ∧ d.at? l ≠ some .folder ∧ d.at? l.dropLast = some .folder

theorem Writable.exists_written (h : d.Writable path) (text : String) :
    ∃ l d', d.Written path text l d' := by
  obtain ⟨l, hl, hfree, haround⟩ := h
  exact ⟨l, _, hl, hfree, haround, rfl⟩

/-- Whether a file can be written does not depend on the text. -/
theorem writable_of_writeText (h : d.writeText path text = .ok d') : d.Writable path := by
  obtain ⟨l, hwritten⟩ := Disk.exists_written h
  exact ⟨l, hwritten.leads, hwritten.free, hwritten.around⟩

/-- A file was removed. -/
structure Removed (d : Disk) (path : String) (l : Location) (d' : Disk) : Prop where
  leads : d.locate path = .ok l
  file : ∃ bytes, d.at? l = some (.file bytes)
  result : d' = d.erase l

theorem not_folder_of_file (h : d.at? l = some (.file bytes)) : d.at? l ≠ some .folder := by
  rw [h]
  nofun

/-- Where there is no folder, a file is removed, or none is found. -/
theorem removeFile_of_free (hl : d.locate path = .ok l) (hfree : d.at? l ≠ some .folder) :
    d.removeFile path = .ok (d.erase l) ∨ d.removeFile path = .error .notFound := by
  unfold removeFile
  simp only [hl, bind, Except.bind]
  split
  · exact .inl rfl
  next hfolder => exact absurd hfolder hfree
  · exact .inr rfl

theorem exists_removed (h : d.removeFile path = .ok d') : ∃ l, d.Removed path l d' := by
  unfold removeFile at h
  obtain ⟨l, hl, h⟩ := bind_eq_ok_iff.1 h
  refine ⟨l, ?_⟩
  split at h
  next hfile => exact ⟨hl, ⟨_, hfile⟩, (Except.ok.inj h).symm⟩
  · cases h
  · cases h

namespace Removed

theorem not_folder (h : d.Removed path l d') : d.at? l ≠ some .folder :=
  h.file.elim fun _ hfile => not_folder_of_file hfile

theorem at? (h : d.Removed path l d') (k : Location) :
    d'.at? k = if k = l then none else d.at? k := by
  rw [h.result, at?_erase (ne_nil_of_not_folder h.not_folder)]

theorem keeps (h : d.Removed path l d') : d.Keeps d' :=
  h.result ▸ keeps_erase h.not_folder

/-- No folder is new. -/
theorem kept (h : d.Removed path l d') : d'.Keeps d := by
  refine ⟨by rw [h.result]; rfl, fun k hk => ?_⟩
  rw [h.at?] at hk
  split at hk
  · cases hk
  · exact hk

/-- A text that is read afterwards was there before. -/
theorem reads (h : d.Removed path l d') (hread : d'.readText other = .ok found) :
    d.readText other = .ok found := by
  obtain ⟨k, hk, hfile⟩ := readText_eq_ok_iff.1 hread
  rw [h.at?] at hfile
  split at hfile
  · cases hfile
  · exact readText_eq_ok_iff.2 ⟨k, h.kept.locate hk, hfile⟩

end Removed

/-- A file was moved, in place of a file or to where nothing was. -/
structure Renamed (d : Disk) (source target : String) (k l : Location) (bytes : ByteArray)
    (d' : Disk) : Prop where
  source : d.locate source = .ok k
  target : d.locate target = .ok l
  file : d.at? k = some (.file bytes)
  free : d.at? l ≠ some .folder
  result : d' = (d.erase k).insert l (.file bytes)

theorem exists_renamed (h : d.renameFile source target = .ok d') :
    ∃ k l bytes, d.Renamed source target k l bytes d' := by
  unfold renameFile at h
  obtain ⟨k, hk, h⟩ := bind_eq_ok_iff.1 h
  obtain ⟨l, hl, h⟩ := bind_eq_ok_iff.1 h
  refine ⟨k, l, ?_⟩
  split at h
  · cases h
  next bytes hfile hfree => exact ⟨bytes, hk, hl, hfile, hfree, (Except.ok.inj h).symm⟩
  · cases h
  · cases h

namespace Renamed

theorem not_folder (h : d.Renamed source target k l bytes d') : d.at? k ≠ some .folder :=
  not_folder_of_file h.file

theorem free_erase (h : d.Renamed source target k l bytes d') :
    (d.erase k).at? l ≠ some .folder := by
  rw [at?_erase (ne_nil_of_not_folder h.not_folder)]
  split
  · nofun
  · exact h.free

theorem at? (h : d.Renamed source target k l bytes d') (j : Location) : d'.at? j =
    if j = l then some (.file bytes) else if j = k then none else d.at? j := by
  rw [h.result, at?_insert (ne_nil_of_not_folder h.free),
    at?_erase (ne_nil_of_not_folder h.not_folder)]

theorem keeps (h : d.Renamed source target k l bytes d') : d.Keeps d' :=
  h.result ▸ (keeps_erase h.not_folder).trans (keeps_insert h.free_erase _)

/-- No folder is new. -/
theorem kept (h : d.Renamed source target k l bytes d') : d'.Keeps d := by
  refine ⟨by rw [h.result]; rfl, fun j hj => ?_⟩
  rw [h.at?] at hj
  split at hj
  · cases hj
  · split at hj
    · cases hj
    · exact hj

/-- A text that is read afterwards was there before, or is the one that was moved. -/
theorem reads (h : d.Renamed source target k l bytes d') (hread : d'.readText other = .ok found) :
    d.readText other = .ok found ∨ d.locate other = .ok l ∧ found.toUTF8 = bytes := by
  obtain ⟨j, hj, hfile⟩ := readText_eq_ok_iff.1 hread
  have hlocate := h.kept.locate hj
  rw [h.at?] at hfile
  split at hfile
  next heq => exact .inr ⟨heq ▸ hlocate, (Node.file.inj (Option.some.inj hfile)).symm⟩
  next =>
    split at hfile
    · cases hfile
    · exact .inl (readText_eq_ok_iff.2 ⟨j, hlocate, hfile⟩)

end Renamed

/-- A file is moved wherever there is no folder. -/
theorem renamed_of_file (hk : d.locate source = .ok k) (hl : d.locate target = .ok l)
    (hfile : d.at? k = some (.file bytes)) (hfree : d.at? l ≠ some .folder) :
    d.renameFile source target = .ok ((d.erase k).insert l (.file bytes)) := by
  unfold renameFile
  simp only [hk, hl, hfile, bind, Except.bind]

/-- No file is moved to where a folder is. -/
theorem renameFile_of_folder (hk : d.locate source = .ok k) (hl : d.locate target = .ok l)
    (hfile : d.at? k = some (.file bytes)) (hfolder : d.at? l = some .folder) :
    d.renameFile source target = .error .isFolder := by
  unfold renameFile
  simp only [hk, hl, hfile, hfolder, bind, Except.bind]

/-! ### Names that are left alone -/

/-- Whether nothing changes under the names that satisfy a condition, and all folders stay. -/
structure Spares (p : String → Prop) (d d' : Disk) : Prop where
  keeps : d.Keeps d'
  same : ∀ l name, p name → d'.at? (l ++ [name]) = d.at? (l ++ [name])

section Spares

variable {p : String → Prop}

theorem Spares.refl (p : String → Prop) (d : Disk) : d.Spares p d := ⟨.refl d, fun _ _ _ => rfl⟩

theorem Spares.trans (h : d.Spares p d') (h' : d'.Spares p d'') : d.Spares p d'' :=
  ⟨h.keeps.trans h'.keeps, fun l name hname => (h'.same l name hname).trans (h.same l name hname)⟩

/-- A path below a folder leads to its name. -/
theorem ne_of_locate_join (hname : Single name) (hother : ¬ p name)
    (hl : d.locate (join folder name) = .ok l) {other : String} (h : p other) (k : Location) :
    k ++ [other] ≠ l := by
  obtain ⟨-, -, j, -, rfl⟩ := (locate_join_iff hname).1 hl
  intro heq
  exact hother (List.singleton_inj.1 (List.append_inj' heq rfl).2 ▸ h)

theorem Written.spares (h : d.Written (join folder name) text l d') (hname : Single name)
    (hother : ¬ p name) : d.Spares p d' :=
  ⟨h.keeps, fun k _ hk =>
    (h.at? _).trans (if_neg (ne_of_locate_join hname hother h.leads hk k))⟩

theorem Removed.spares (h : d.Removed (join folder name) l d') (hname : Single name)
    (hother : ¬ p name) : d.Spares p d' :=
  ⟨h.keeps, fun k _ hk =>
    (h.at? _).trans (if_neg (ne_of_locate_join hname hother h.leads hk k))⟩

theorem Renamed.spares (h : d.Renamed (join folder name) (join folder other) k l bytes d')
    (hname : Single name) (hsource : ¬ p name) (hother : Single other) (htarget : ¬ p other) :
    d.Spares p d' :=
  ⟨h.keeps, fun j _ hj => (h.at? _).trans
    ((if_neg (ne_of_locate_join hother htarget h.target hj j)).trans
      (if_neg (ne_of_locate_join hname hsource h.source hj j)))⟩

end Spares

end Disk

end Guillotine
