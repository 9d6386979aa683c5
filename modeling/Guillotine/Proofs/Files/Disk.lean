import Guillotine.Files.Disk
import Guillotine.Proofs.Files.Path
import Guillotine.Proofs.Returns

/-! Files in a folder. A path to a folder goes on leading there while files are written and removed,
since a walk only looks at folders. So a plain name below the path leads to one place, and what is
written there is what is read there. -/
namespace Guillotine

namespace Disk

open Guillotine.Path (Plain Single join)

variable {d d' : Disk} {l k : Location} {path folder name other text : String} {n : Node}

/-! ### Locations -/

theorem at?_insert (hl : l ≠ []) : (d.insert l n).at? k = if k = l then some n else d.at? k := by
  unfold at? insert
  by_cases hk : k = []
  · rw [if_pos hk, if_pos hk, if_neg (ne_of_eq_of_ne hk hl.symm)]
  · simp [hk, eq_comm]

theorem at?_erase (hl : l ≠ []) : (d.erase l).at? k = if k = l then none else d.at? k := by
  unfold at? erase
  by_cases hk : k = []
  · rw [if_pos hk, if_pos hk, if_neg (ne_of_eq_of_ne hk hl.symm)]
  · simp [hk, Table.get?_erase, eq_comm]

theorem step_folder (h : d.step l name = .ok k) : d.at? l = some .folder := by
  unfold step at h
  split at h
  · cases h
  · cases h
  · assumption

theorem step_empty (h : d.step l "" = .ok k) : k = l := by
  have hfolder := step_folder h
  unfold step at h
  rw [hfolder] at h
  exact (Except.ok.inj h).symm

/-- A single step leads into a folder if the name can be a name there. -/
theorem step_single_iff (hname : Single name) : d.step l name = .ok k ↔
    d.at? l = some .folder ∧ name.utf8ByteSize ≤ maxNameSize ∧ k = l ++ [name] := by
  have hkeep : ¬ (name = "" ∨ name = ".") := by simp [hname.ne_empty, hname.ne_dot]
  unfold step
  rw [if_neg hkeep, if_neg hname.ne_dots]
  cases d.at? l with
  | none => simp
  | some n =>
    cases n with
    | file _ => simp
    | folder =>
      dsimp only
      split
      next hlong => simp [Nat.not_le.2 hlong]
      next hshort => simp [Nat.not_lt.1 hshort, eq_comm]

theorem step_plain (h : d.at? l = some .folder) (hname : Plain name) :
    d.step l name = .ok (l ++ [name]) :=
  (step_single_iff hname.single).2 ⟨h, hname.short, rfl⟩

/-- A walk leads to the same place where there are the same folders, and maybe more. -/
theorem foldlM_step_mono (hfolders : ∀ k, d.at? k = some .folder → d'.at? k = some .folder)
    {names : List String} {start : Location} (h : names.foldlM d.step start = .ok l) :
    names.foldlM d'.step start = .ok l := by
  induction names generalizing start with
  | nil => exact h
  | cons name names ih =>
    rw [List.foldlM_cons, bind_eq_ok_iff] at h ⊢
    obtain ⟨next, hstep, h⟩ := h
    have hfolder := step_folder hstep
    have hsame : d'.step start name = .ok next := by
      rw [← hstep]
      unfold step
      rw [hfolder, hfolders _ hfolder]
    exact ⟨next, hsame, ih h⟩

/-! ### Paths below a folder -/

theorem locate_eq_ok_iff : d.locate path = .ok l ↔ checkPath path = .ok () ∧ path ≠ "" ∧
    (path.splitOn "/").foldlM d.step (d.origin path) = .ok l := by
  unfold locate
  rw [bind_eq_ok_iff, Unique.exists_iff]
  by_cases hempty : path = "" <;> simp [hempty]

theorem checkPath_eq_ok_iff : checkPath path = .ok () ↔
    '\x00' ∉ path.toList ∧ path.utf8ByteSize ≤ maxPathSize := by
  unfold checkPath
  split
  next hzero => simp [hzero]
  next hzero =>
    split
    next hlong => simp [Nat.not_le.2 hlong]
    next hshort => simp [hzero, Nat.not_lt.1 hshort]

/-- The walk along a path leads to a folder. Paths below it may still be too long. -/
structure Enters (d : Disk) (path : String) (l : Location) : Prop where
  leads : (path.splitOn "/").foldlM d.step (d.origin path) = .ok l
  folder : d.at? l = some .folder

theorem foldlM_step_concat_iff {names : List String} {start : Location} (hname : Single name) :
    (names ++ [name]).foldlM d.step start = .ok l ↔
      ∃ k, names.foldlM d.step start = .ok k ∧ d.at? k = some .folder ∧
        name.utf8ByteSize ≤ maxNameSize ∧ l = k ++ [name] := by
  rw [List.foldlM_append, bind_eq_ok_iff]
  refine exists_congr fun k => and_congr_right fun _ => ?_
  rw [← step_single_iff hname, List.foldlM_cons]
  exact iff_of_eq (congrArg (· = _) (bind_pure _))

theorem step_empty_eq (h : d.at? l = some .folder) : d.step l "" = .ok l := by
  unfold step
  rw [h]
  rfl

/-- Below a folder a single name leads into the folder, as far as it leads anywhere. -/
theorem locate_join_iff (hname : Single name) : d.locate (join folder name) = .ok l ↔
    checkPath (join folder name) = .ok () ∧ name.utf8ByteSize ≤ maxNameSize ∧
      ∃ k, d.Enters folder k ∧ l = k ++ [name] := by
  have horigin : d.origin (join folder name) = d.origin folder := by
    rw [origin, origin, Path.startsWith_join folder hname]
  rw [locate_eq_ok_iff, horigin, and_iff_right (Path.join_ne_empty hname)]
  refine and_congr_right fun _ => ?_
  rcases Path.splitOn_join folder hname with hsplit | ⟨front, hfolder, hsplit⟩
  · rw [hsplit, foldlM_step_concat_iff hname]
    constructor
    · rintro ⟨k, hleads, hk, hshort, rfl⟩
      exact ⟨hshort, k, ⟨hleads, hk⟩, rfl⟩
    · rintro ⟨hshort, k, hk, rfl⟩
      exact ⟨k, hk.leads, hk.folder, hshort, rfl⟩
  · -- The path of the folder ends in a slash, behind which the empty name leads nowhere else.
    rw [hsplit, foldlM_step_concat_iff hname]
    constructor
    · rintro ⟨k, hleads, hk, hshort, rfl⟩
      refine ⟨hshort, k, ⟨?_, hk⟩, rfl⟩
      rw [hfolder, List.foldlM_append, bind_eq_ok_iff]
      exact ⟨k, hleads, (bind_pure _).trans (step_empty_eq hk)⟩
    · rintro ⟨hshort, k, hk, rfl⟩
      have hleads := hk.leads
      rw [hfolder, List.foldlM_append, bind_eq_ok_iff] at hleads
      obtain ⟨j, hfront, hleads⟩ := hleads
      obtain rfl := step_empty ((bind_pure (d.step j "")).symm.trans hleads)
      exact ⟨k, hfront, hk.folder, hshort, rfl⟩

/-! ### A folder and its path -/

/-- A path leads to a folder, and is short enough for paths below it. -/
structure Place (d : Disk) (path : String) (l : Location) : Prop where
  leads : (path.splitOn "/").foldlM d.step (d.origin path) = .ok l
  folder : d.at? l = some .folder
  no_zero : '\x00' ∉ path.toList
  short : path.utf8ByteSize + 256 ≤ maxPathSize

/-- A plain name leads to a folder where relative paths start. -/
theorem place_of_plain (hname : Plain name) (hhere : d.at? d.here = some .folder)
    (hfolder : d.at? (d.here ++ [name]) = some .folder) : d.Place name (d.here ++ [name]) where
  leads := by
    have horigin : d.origin name = d.here :=
      if_neg (Bool.not_eq_true _ ▸ hname.single.startsWith_slash)
    rw [Path.splitOn_of_no_slash hname.no_slash, horigin]
    exact (bind_pure _).trans (step_plain hhere hname)
  folder := hfolder
  no_zero := hname.no_zero
  short := by
    have hshort := hname.short
    unfold maxPathSize
    omega

theorem Place.mono (h : d.Place path l) (hhere : d'.here = d.here)
    (hfolders : ∀ k, d.at? k = some .folder → d'.at? k = some .folder) : d'.Place path l := by
  refine ⟨?_, hfolders l h.folder, h.no_zero, h.short⟩
  have horigin : d'.origin path = d.origin path := by rw [origin, origin, hhere]
  rw [horigin]
  exact foldlM_step_mono hfolders h.leads

theorem Place.checked (h : d.Place path l) : checkPath path = .ok () := by
  have hshort := h.short
  exact checkPath_eq_ok_iff.2 ⟨h.no_zero, by omega⟩

/-- There is a folder wherever a walk to a folder comes through. -/
theorem folder_of_leads {names : List String} {start : Location}
    (h : names.foldlM d.step start = .ok l) (hfolder : d.at? l = some .folder) :
    d.at? start = some .folder := by
  cases names with
  | nil =>
    obtain rfl := Except.ok.inj h
    exact hfolder
  | cons name names =>
    rw [List.foldlM_cons, bind_eq_ok_iff] at h
    obtain ⟨next, hstep, -⟩ := h
    exact step_folder hstep

/-- On the way to a folder there are no folders to be made. -/
theorem makeAlong_of_leads {names : List String} {start : Location}
    (h : names.foldlM d.step start = .ok l) (hfolder : d.at? l = some .folder) :
    d.makeAlong start names = (d, .ok ()) := by
  induction names generalizing start with
  | nil => rfl
  | cons name names ih =>
    rw [List.foldlM_cons, bind_eq_ok_iff] at h
    obtain ⟨next, hstep, h⟩ := h
    have hmaking : d.stepMaking start name = .ok (d, next) := by
      unfold stepMaking
      simp only [hstep, bind, Except.bind, folder_of_leads h hfolder]
    unfold makeAlong
    rw [hmaking]
    exact ih h

/-- The path of a folder that is there asks for no folders to be made. -/
theorem Place.makeFolders (h : d.Place path l) : d.makeFolders path = (d, .ok ()) := by
  unfold Disk.makeFolders
  by_cases hempty : path = ""
  · rw [if_pos hempty]
  rw [if_neg hempty, h.checked]
  dsimp only
  rw [List.span_eq_takeWhile_dropWhile]
  dsimp only
  split
  · -- The path ends in a dot, so the way to the folder around it is walked first.
    generalize hrest : ((path.splitOn "/").reverse.dropWhile fun n => decide (n = "" ∨ n = ".")) =
      rest
    have hfront : rest.tail.reverse <+: path.splitOn "/" := by
      rw [← List.reverse_suffix, List.reverse_reverse]
      exact (List.tail_suffix rest).trans (hrest ▸ List.dropWhile_suffix _)
    obtain ⟨names, hnames⟩ := hfront
    have hleads := h.leads
    rw [← hnames, List.foldlM_append] at hleads
    cases hwalk : rest.tail.reverse.foldlM d.step (d.origin path) with
    | error e =>
      rw [hwalk] at hleads
      cases hleads
    | ok k =>
      rw [hwalk] at hleads
      rw [makeAlong_of_leads hwalk (folder_of_leads hleads h.folder)]
      have hlocate : d.locate path = .ok l := by
        unfold locate
        rw [h.checked]
        exact (if_neg hempty).trans h.leads
      simp only [hlocate, Except.map]
  · exact makeAlong_of_leads h.leads h.folder

/-- A plain name below the path of a folder leads into the folder. -/
theorem Place.locate (h : d.Place path l) (hname : Plain name) :
    d.locate (join path name) = .ok (l ++ [name]) := by
  have hsize := Path.utf8ByteSize_join_le path hname.single
  have hshort := h.short
  have hnameShort := hname.short
  refine (locate_join_iff hname.single).2
    ⟨checkPath_eq_ok_iff.2 ⟨fun hmem => ?_, by omega⟩, hname.short, l, ⟨h.leads, h.folder⟩, rfl⟩
  rcases Path.mem_join hname.single hmem with hc | hc | hc
  · exact h.no_zero hc
  · exact absurd hc (by decide)
  · exact hname.no_zero hc

/-! ### Files in a folder -/

theorem append_singleton_ne_nil (l : Location) (name : String) : l ++ [name] ≠ [] := by simp

/-- The text under a name in a folder, if there is one. -/
def Shows (d : Disk) (l : Location) (name : String) (text? : Option String) : Prop :=
  d.at? (l ++ [name]) = text?.map fun text => .file text.toUTF8

theorem fromUTF8?_toUTF8 (text : String) : String.fromUTF8? text.toUTF8 = some text :=
  dif_pos text.isValidUTF8

theorem toUTF8_of_fromUTF8? {bytes : ByteArray} (h : String.fromUTF8? bytes = some text) :
    text.toUTF8 = bytes := by
  unfold String.fromUTF8? at h
  split at h
  next => exact Option.some.inj h ▸ rfl
  next => cases h

/-- A text is read from a file. -/
theorem readText_eq_ok_iff : d.readText path = .ok text ↔
    ∃ l, d.locate path = .ok l ∧ d.at? l = some (.file text.toUTF8) := by
  unfold readText readBytes
  constructor
  · intro h
    obtain ⟨bytes, hbytes, h⟩ := bind_eq_ok_iff.1 h
    obtain ⟨l, hl, hfile⟩ := bind_eq_ok_iff.1 hbytes
    refine ⟨l, hl, ?_⟩
    split at hfile
    next read hat =>
      obtain rfl := Except.ok.inj hfile
      split at h
      next s hs =>
        obtain rfl := Except.ok.inj h
        rw [hat, toUTF8_of_fromUTF8? hs]
      next => cases h
    · cases hfile
    · cases hfile
  · rintro ⟨l, hl, hfile⟩
    simp only [hl, hfile, bind, Except.bind, fromUTF8?_toUTF8]

theorem Place.readText (h : d.Place path l) (hname : Plain name) {text? : Option String}
    (hshows : d.Shows l name text?) : d.readText (join path name) =
      match text? with
      | some text => .ok text
      | none => .error .notFound := by
  unfold Disk.readText readBytes
  simp only [h.locate hname, bind, Except.bind, show d.at? (l ++ [name]) = _ from hshows]
  cases text? with
  | none => rfl
  | some text => simp only [Option.map_some, fromUTF8?_toUTF8]

theorem Place.removeFile (h : d.Place path l) (hname : Plain name)
    (hshows : d.Shows l name (some text)) :
    d.removeFile (join path name) = .ok (d.erase (l ++ [name])) := by
  unfold Disk.removeFile
  simp only [h.locate hname, bind, Except.bind, show d.at? (l ++ [name]) = _ from hshows,
    Option.map_some]

theorem Place.writeText (h : d.Place path l) (hname : Plain name)
    (hfile : d.at? (l ++ [name]) ≠ some .folder) (text : String) :
    d.writeText (join path name) text = .ok (d.insert (l ++ [name]) (.file text.toUTF8)) := by
  unfold Disk.writeText writeBytes
  simp only [h.locate hname, bind, Except.bind, List.dropLast_concat, h.folder]

theorem Place.renameFile (h : d.Place path l) (hname : Plain name) (hother : Plain other)
    (hshows : d.Shows l other (some text)) (hfile : d.at? (l ++ [name]) ≠ some .folder) :
    d.renameFile (join path other) (join path name) =
      .ok ((d.erase (l ++ [other])).insert (l ++ [name]) (.file text.toUTF8)) := by
  unfold Disk.renameFile
  simp only [h.locate hname, h.locate hother, bind, Except.bind,
    show d.at? (l ++ [other]) = _ from hshows, Option.map_some]

/-- A file that is written beside another one and then takes its place. -/
theorem Place.replaceFile (h : d.Place path l) (hname : Plain name) (hother : Plain other)
    (hne : name ≠ other) (hfiles : ∀ name, d.at? (l ++ [name]) ≠ some .folder) (text : String) :
    ∃ d₁ d₂, d.writeText (join path other) text = .ok d₁ ∧
      d₁.renameFile (join path other) (join path name) = .ok d₂ ∧ d₂.here = d.here ∧
      ∀ k, d₂.at? k = if k = l ++ [name] then some (.file text.toUTF8)
        else if k = l ++ [other] then none else d.at? k := by
  have htarget := append_singleton_ne_nil l name
  have hsource := append_singleton_ne_nil l other
  obtain ⟨d₁, hd₁⟩ : ∃ d₁, d₁ = d.insert (l ++ [other]) (.file text.toUTF8) := ⟨_, rfl⟩
  have hat : ∀ k, d₁.at? k = if k = l ++ [other] then some (.file text.toUTF8) else d.at? k := by
    intro k
    rw [hd₁, at?_insert hsource]
  have hplace : d₁.Place path l := by
    refine h.mono (by rw [hd₁]; rfl) fun k hk => ?_
    rw [hat, if_neg fun heq : k = l ++ [other] => hfiles other (heq ▸ hk), hk]
  have hnot : d₁.at? (l ++ [name]) ≠ some .folder := by
    rw [hat, if_neg (by simpa using hne)]
    exact hfiles name
  refine ⟨d₁, _, hd₁ ▸ h.writeText hother (hfiles other) text,
    hplace.renameFile hname hother ((hat _).trans (if_pos rfl)) hnot, by rw [hd₁]; rfl, fun k => ?_⟩
  rw [at?_insert htarget, at?_erase hsource, hat]
  split_ifs <;> rfl

end Disk

end Guillotine
