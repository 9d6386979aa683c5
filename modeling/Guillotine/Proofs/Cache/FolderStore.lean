import Guillotine.Cache.Results
import Guillotine.Proofs.Documents.Stored
import Guillotine.Proofs.Files.Disk
import Guillotine.Proofs.Request.Digest

/-! Documents in a folder that nobody else uses. A document that is written is the one that is read
under its name from then on, and no document under another name is touched: the temporary file takes
the place of the old document, and no document has the name of a temporary file. Keys of letters,
digits and colons have names of their own. -/
namespace Guillotine

open Guillotine.Path (Plain Single join)

/-! ### Plain names -/

/-- The characters of the names of documents. -/
def isPlainChar (c : Char) : Bool := c.isAlphanum || c == '-' || c == '_' || c == '.'

theorem val_le_of_isPlainChar {c : Char} (h : isPlainChar c = true) : c.val ≤ 127 := by
  simp only [isPlainChar, Char.isAlphanum, Char.isAlpha, Char.isUpper, Char.isLower, Char.isDigit,
    Bool.or_eq_true, Bool.and_eq_true, decide_eq_true_eq, beq_iff_eq, ge_iff_le] at h
  rcases h with ((((h | h) | h) | rfl) | rfl) | rfl
  · exact UInt32.le_trans h.2 (by decide)
  · exact UInt32.le_trans h.2 (by decide)
  · exact UInt32.le_trans h.2 (by decide)
  · decide
  · decide
  · decide

/-- A text of at most `limit` plain characters. -/
structure Modest (limit : Nat) (s : String) : Prop where
  chars : ∀ c ∈ s.toList, isPlainChar c = true
  short : s.toList.length ≤ limit

theorem Modest.append {m n : Nat} {s t : String} (hs : Modest m s) (ht : Modest n t) :
    Modest (m + n) (s ++ t) := by
  constructor
  · rw [String.toList_append, List.forall_mem_append]
    exact ⟨hs.chars, ht.chars⟩
  · rw [String.toList_append, List.length_append]
    exact Nat.add_le_add hs.short ht.short

theorem Modest.mono {m n : Nat} {s : String} (h : Modest m s) (hmn : m ≤ n) : Modest n s :=
  ⟨h.chars, h.short.trans hmn⟩

theorem toList_toString (n : Nat) : (toString n).toList = Nat.toDigits 10 n := by
  rw [Nat.toString_eq_ofList_toDigits, String.toList_ofList]

theorem isPlainChar_of_mem_toString {n : Nat} {c : Char} (hc : c ∈ (toString n).toList) :
    isPlainChar c = true := by
  rw [toList_toString] at hc
  have hdigit := Nat.isDigit_of_mem_toDigits (by decide) (by decide) hc
  simp [isPlainChar, Char.isAlphanum, hdigit]

/-- The digits of a counter of 64 bits. -/
theorem modest_toString {n : Nat} (h : n < UInt64.size) : Modest 20 (toString n) := by
  refine ⟨fun c hc => isPlainChar_of_mem_toString hc, ?_⟩
  rw [toList_toString, Nat.length_toDigits_le_iff (by decide) (by decide)]
  exact h.trans (by decide)

/-- A text of plain characters, if it is long enough, leads a single step along a path. -/
theorem single_of_isPlainChar {s : String} (h : ∀ c ∈ s.toList, isPlainChar c = true)
    (hlength : 3 ≤ s.toList.length) : Single s where
  no_slash hmem := absurd (h _ hmem) (by decide)
  ne_empty := by
    rintro rfl
    exact absurd hlength (by decide)
  ne_dot := by
    rintro rfl
    exact absurd hlength (by decide)
  ne_dots := by
    rintro rfl
    exact absurd hlength (by decide)

theorem Modest.plain {s : String} (h : Modest 255 s) (hlength : 3 ≤ s.toList.length) : Plain s :=
  have hsingle := single_of_isPlainChar h.chars hlength
  { no_slash := hsingle.no_slash
    no_zero := fun hmem => absurd (h.chars _ hmem) (by decide)
    ne_empty := hsingle.ne_empty
    ne_dot := hsingle.ne_dot
    ne_dots := hsingle.ne_dots
    short := by
      have hsize := utf8ByteSize_of_ascii fun c hc => val_le_of_isPlainChar (h.chars c hc)
      rw [String.ofList_toList] at hsize
      exact hsize.le.trans h.short }

/-- The name of a document without its ending. -/
structure Stem (stem : String) : Prop where
  modest : Modest 100 stem
  ne_empty : stem ≠ ""

namespace Stem

variable {stem writer : String} {begun : Nat}

theorem plain_document (h : Stem stem) : Plain (stem ++ ".json") := by
  have hending : Modest 5 ".json" := ⟨by simp [isPlainChar], by simp⟩
  refine ((h.modest.append hending).mono (by decide)).plain ?_
  have hlength : ".json".toList.length = 5 := by simp
  rw [String.toList_append, List.length_append, hlength]
  omega

/-- The name of a temporary file for a document. -/
def temporary (stem writer : String) (begun : Nat) : String :=
  String.join [stem, ".", writer, ".", toString begun, ".tmp"]

theorem temporary_eq (stem writer : String) (begun : Nat) : temporary stem writer begun =
    stem ++ ("." ++ (writer ++ ("." ++ (toString begun ++ ".tmp")))) := by
  simp [temporary, String.join_cons]

theorem plain_temporary (h : Stem stem) (hwriter : Modest 100 writer)
    (hbegun : begun < UInt64.size) :
    Plain (temporary stem writer begun) := by
  have hdot : Modest 1 "." := ⟨by simp [isPlainChar], by simp⟩
  have hending : Modest 4 ".tmp" := ⟨by simp [isPlainChar], by simp⟩
  have hmodest := h.modest.append
    (hdot.append (hwriter.append (hdot.append ((modest_toString hbegun).append hending))))
  rw [← temporary_eq] at hmodest
  refine (hmodest.mono (by decide)).plain ?_
  have hlength : ".tmp".toList.length = 4 := by simp
  simp only [temporary_eq, String.toList_append, List.length_append, hlength]
  omega

/-- No document has the name of a temporary file. -/
theorem temporary_ne_document {other : String} :
    temporary stem writer begun ≠ other ++ ".json" := by
  intro heq
  have hlast := congrArg (fun s => s.toList.reverse.head?) heq
  simp [temporary, String.join_cons] at hlast

end Stem

namespace FolderStore

open Disk (at?_insert at?_erase append_singleton_ne_nil)

variable {f f' : FolderStore} {l : Location} {stem text : String} {text? : Option String}

/-! ### Documents -/

/-- The folder is there, holds no folders, and is not blocked. -/
structure Sound (l : Location) (f : FolderStore) : Prop where
  place : f.disk.Place f.folder l
  no_folder : ∀ name, f.disk.at? (l ++ [name]) ≠ some .folder
  writer : Modest 100 f.writer
  counter : f.begun < UInt64.size
  unblocked : f.blocked = false

/-- The text of the document with a stem, if it is there. -/
def Shows (l : Location) (f : FolderStore) (stem : String) (text? : Option String) : Prop :=
  f.disk.Shows l (stem ++ ".json") text?

/-- What becomes of a folder when one document is written or removed. -/
structure Puts (l : Location) (stem : String) (text? : Option String) (f f' : FolderStore) :
    Prop where
  sound : f'.Sound l
  shows : f'.Shows l stem text?
  others : ∀ other other?, other ≠ stem → f.Shows l other other? → f'.Shows l other other?

/-- A change of the disk that leaves all folders where they are. -/
theorem Sound.of_disk {d : Disk} {begun : Nat} (h : f.Sound l) (hcounter : begun < UInt64.size)
    (hhere : d.here = f.disk.here)
    (hfolders : ∀ k, d.at? k = some .folder ↔ f.disk.at? k = some .folder) :
    ({ f with disk := d, begun } : FolderStore).Sound l :=
  ⟨h.place.mono hhere fun k => (hfolders k).2, fun name => (hfolders _).not.2 (h.no_folder name),
    h.writer, hcounter, h.unblocked⟩

/-- A folder that is there is opened as it is. -/
theorem opened_eq {d : Disk} {folder writer : String} {begun : Nat} (h : d.Place folder l) :
    opened d folder writer begun = (d, .ok ⟨d, folder, false, writer, begun⟩) := by
  unfold opened
  rw [h.makeFolders]

/-- The path of the document with a stem. -/
def path (f : FolderStore) (stem : String) : String := Path.join f.folder (stem ++ ".json")

/-- A document that stays as it is. -/
theorem Puts.refl (h : f.Sound l) (hshows : f.Shows l stem text?) : Puts l stem text? f f :=
  ⟨h, hshows, fun _ _ _ hold => hold⟩

theorem Sound.readDocument (h : f.Sound l) (hstem : Stem stem) (hshows : f.Shows l stem text?) :
    f.readDocument (f.path stem) = .ok text? := by
  unfold FolderStore.readDocument path
  rw [h.place.readText hstem.plain_document hshows]
  cases text? <;> rfl

theorem temporaryPath_path (f : FolderStore) (hstem : Stem stem) :
    f.temporaryPath (f.path stem) =
      Path.join f.folder (Stem.temporary stem f.writer f.begun) := by
  have hname : stem ++ ".json" = stem ++ "." ++ "json" := by
    rw [String.append_assoc]
    rfl
  unfold FolderStore.temporaryPath path
  rw [Path.lastName?_join f.folder hstem.plain_document.single, Option.getD_some, hname]
  dsimp only
  rw [Path.withoutEnding_append hstem.ne_empty (by simp)]
  rfl

/-- A document that is removed is not there anymore. -/
theorem Sound.removeDocument (h : f.Sound l) (hstem : Stem stem)
    (hshows : f.Shows l stem (some text)) :
    ∃ f', f.removeDocument (f.path stem) = (f', .ok ()) ∧ Puts l stem none f f' := by
  have hlocation := append_singleton_ne_nil l (stem ++ ".json")
  refine ⟨{ f with disk := f.disk.erase (l ++ [stem ++ ".json"]) }, ?_, ?_, ?_, ?_⟩
  · unfold FolderStore.removeDocument path
    rw [h.place.removeFile hstem.plain_document hshows]
  · refine h.of_disk (d := f.disk.erase _) h.counter rfl fun k => ?_
    rw [at?_erase hlocation]
    split
    next hk =>
      subst hk
      exact iff_of_false nofun (h.no_folder _)
    next => rfl
  · exact (at?_erase hlocation).trans (if_pos rfl)
  · intro other other? hother hold
    exact (at?_erase hlocation).trans ((if_neg (by simpa using hother)).trans hold)

/-- A document that is written is there from then on. -/
theorem Sound.writeDocument (h : f.Sound l) (hstem : Stem stem) (text : String) :
    ∃ f', f.writeDocument (f.path stem) text = (f', .ok ()) ∧ Puts l stem (some text) f f' := by
  have htemporary := hstem.plain_temporary h.writer h.counter
  generalize hname : Stem.temporary stem f.writer f.begun = name at htemporary
  have hne : ∀ other, other ++ ".json" ≠ name := fun other heq =>
    Stem.temporary_ne_document (hname.trans heq.symm)
  obtain ⟨d, d', hwrite, hrename, hhere, hat⟩ :=
    h.place.replaceFile hstem.plain_document htemporary (hne stem) h.no_folder text
  have hfolders : ∀ k, d'.at? k = some .folder ↔ f.disk.at? k = some .folder := by
    intro k
    rw [hat]
    split
    next hk =>
      subst hk
      exact iff_of_false nofun (h.no_folder _)
    next =>
      split
      next hk =>
        subst hk
        exact iff_of_false nofun (h.no_folder _)
      next => rfl
  refine ⟨{ f with disk := d', begun := (f.begun + 1) % UInt64.size }, ?_, ?_, ?_, ?_⟩
  · unfold FolderStore.writeDocument
    rw [f.temporaryPath_path hstem, hname]
    dsimp only
    rw [hwrite]
    dsimp only
    rw [path, hrename]
  · exact h.of_disk (Nat.mod_lt _ (by decide)) hhere hfolders
  · exact (hat _).trans (if_pos rfl)
  · intro other other? hother hold
    refine (hat _).trans ((if_neg ?_).trans ((if_neg ?_).trans hold))
    · simpa using hother
    · simpa using hne other

/-! ### Keys -/

/-- A key of letters, digits and colons. -/
structure Tidy (key : String) : Prop where
  chars : ∀ c ∈ key.toList, c.isAlphanum = true ∨ c = ':'
  ne_empty : key ≠ ""
  short : key.toList.length ≤ 90

variable {key other set : String}

theorem toList_sanitize (key : String) : (sanitize key).toList =
    key.toList.map fun c => if c.isAlphanum || c == '-' || c == '_' then c else '_' :=
  String.toList_map

/-- What becomes of a character of a tidy key, and how to get it back. -/
theorem Tidy.sanitize_char (h : Tidy key) {c : Char} (hc : c ∈ (sanitize key).toList) :
    c.isAlphanum = true ∨ c = '_' := by
  rw [toList_sanitize] at hc
  obtain ⟨b, hb, rfl⟩ := List.mem_map.1 hc
  rcases h.chars b hb with halpha | rfl
  · exact .inl (by simp [halpha])
  · exact .inr (by decide)

theorem Tidy.toList_eq (h : Tidy key) :
    (sanitize key).toList.map (fun c => if c = '_' then ':' else c) = key.toList := by
  rw [toList_sanitize, List.map_map]
  refine (List.map_congr_left fun c hc => ?_).trans (List.map_id _)
  rcases h.chars c hc with halpha | rfl
  · have hne : c ≠ '_' := by
      rintro rfl
      exact absurd halpha (by decide)
    simp [halpha, hne]
  · decide

/-- Tidy keys have names of their own. -/
theorem Tidy.sanitize_inj (h : Tidy key) (k : Tidy other) (heq : sanitize key = sanitize other) :
    key = other := by
  rw [← String.toList_inj, ← h.toList_eq, ← k.toList_eq, heq]

theorem Tidy.modest_sanitize (h : Tidy key) : Modest 90 (sanitize key) := by
  constructor
  · intro c hc
    rcases h.sanitize_char hc with halpha | rfl
    · simp [isPlainChar, halpha]
    · decide
  · rw [toList_sanitize, List.length_map]
    exact h.short

theorem Tidy.stem_sanitize (h : Tidy key) : Stem (sanitize key) := by
  refine ⟨h.modest_sanitize.mono (by decide), fun hempty => h.ne_empty ?_⟩
  rw [← String.toList_inj, ← h.toList_eq, hempty]
  rfl

/-- The stem of the document of a set. -/
def setStem (set : String) : String := sanitize set ++ ".zset"

theorem Tidy.stem_setStem (h : Tidy set) : Stem (setStem set) := by
  have hending : Modest 5 ".zset" := ⟨by simp [isPlainChar], by simp⟩
  refine ⟨(h.modest_sanitize.append hending).mono (by decide), fun hempty => ?_⟩
  have hnil := String.append_eq_empty_iff.1 hempty
  exact absurd hnil.2 (by decide)

theorem setStem_inj (h : Tidy set) (k : Tidy other)
    (heq : FolderStore.setStem set = FolderStore.setStem other) : set = other :=
  h.sanitize_inj k ((String.append_left_inj _).1 heq)

/-- No text has the name of a set. -/
theorem Tidy.sanitize_ne_setStem (h : Tidy key) : sanitize key ≠ FolderStore.setStem set := by
  intro heq
  have hdot : '.' ∈ (sanitize key).toList := by
    rw [heq, FolderStore.setStem, String.toList_append]
    exact List.mem_append_right _ (by simp)
  rcases h.sanitize_char hdot with halpha | hunderscore
  · exact absurd halpha (by decide)
  · exact absurd hunderscore (by decide)

theorem setPath_eq (f : FolderStore) (set : String) :
    f.setPath set = f.path (FolderStore.setStem set) := by
  unfold setPath path FolderStore.setStem
  rw [String.append_assoc]
  rfl

/-! ### Texts and sets -/

theorem Sound.stored? (h : f.Sound l) (hkey : Tidy key) {s? : Option StoredValue}
    (hshows : f.Shows l (sanitize key) (s?.map write))
    (hrange : ∀ s, s? = some s → s.expiry.inRange = true) : f.stored? key = .ok s? := by
  unfold FolderStore.stored?
  show (do let text? ← f.readDocument (f.path (sanitize key)); _) = _
  rw [h.readDocument hkey.stem_sanitize hshows]
  cases s? with
  | none => rfl
  | some s =>
    simp only [Option.map_some, bind, Except.bind, StoredValue.read?_write (hrange s rfl)]
    rfl

theorem Sound.members (h : f.Sound l) (hset : Tidy set) {s? : Option ScoredSet}
    (hshows : f.Shows l (FolderStore.setStem set) (s?.map write))
    (horderly : (s?.getD .empty).Orderly) :
    ∃ t, f.members set = .ok t ∧ (s?.getD .empty).entries.Perm t.entries := by
  unfold FolderStore.members
  rw [setPath_eq, h.readDocument hset.stem_setStem hshows]
  cases s? with
  | none => exact ⟨.empty, rfl, .refl _⟩
  | some s =>
    obtain ⟨t, hread, hperm⟩ := ScoredSet.read?_write horderly
    refine ⟨t, ?_, hperm⟩
    change read? (write s) = some t at hread
    simp only [Option.map_some, bind, Except.bind, hread]
    rfl

section Expiry

variable {now : Moment} {ttl : UInt64} {expiry : Timestamp}

theorem expiry?_eq_some (h : expiry? now ttl = some expiry) :
    expiry = ⟨now.wall.nanoseconds + ttl.toNat * Timestamp.nanosPerSecond⟩ ∧
      expiry.inRange = true := by
  unfold expiry? at h
  dsimp only at h
  split at h
  next hrange =>
    cases h
    exact ⟨rfl, hrange⟩
  next => cases h

end Expiry

section Get

variable {now : Moment} {s : StoredValue} (v : Verbosity)

theorem get_unread (now : Moment) {e : CacheError} (h : f.stored? key = .error e) :
    ((Backend.get now key : Caching FolderStore _).run v f).outcome = (f, .ok (.error e)) := by
  show ((FolderStore.get now key).run v f).outcome = _
  unfold FolderStore.get
  rw [outcome_run_bind_ok (a := f) (t := f) rfl]
  simp only [h]
  rfl

theorem get_absent (now : Moment) (h : f.stored? key = .ok none) :
    ((Backend.get now key : Caching FolderStore _).run v f).outcome = (f, .ok (.ok none)) := by
  show ((FolderStore.get now key).run v f).outcome = _
  unfold FolderStore.get
  rw [outcome_run_bind_ok (a := f) (t := f) rfl]
  simp only [h]
  rfl

theorem get_live (h : f.stored? key = .ok (some s))
    (hlive : now.wall.nanoseconds < s.expiry.nanoseconds) :
    ((Backend.get now key : Caching FolderStore _).run v f).outcome =
      (f, .ok (.ok (some s.value))) := by
  show ((FolderStore.get now key).run v f).outcome = _
  unfold FolderStore.get
  rw [outcome_run_bind_ok (a := f) (t := f) rfl]
  simp only [h, if_pos hlive]
  rfl

theorem get_over (h : f.stored? key = .ok (some s))
    (hover : ¬ now.wall.nanoseconds < s.expiry.nanoseconds) :
    ((Backend.get now key : Caching FolderStore _).run v f).outcome =
      ((f.removeDocument (f.valuePath key)).1, .ok (.ok none)) := by
  show ((FolderStore.get now key).run v f).outcome = _
  unfold FolderStore.get
  rw [outcome_run_bind_ok (a := f) (t := f) rfl]
  simp only [h, if_neg hover]
  exact outcome_run_bind_ok (outcome_run_lift_ok Run.outcome_note)

/-- Looking leaves the folder alone and finds what is stored, if anything, or removes a document. -/
theorem get_cases (now : Moment) (key : String) (v : Verbosity) (f : FolderStore) :
    (((Backend.get now key : Caching FolderStore _).run v f).state = f ∧
      ∃ found, ((Backend.get now key : Caching FolderStore _).run v f).value = .ok found ∧
        ∀ text, found = .ok (some text) →
          ∃ stored : StoredValue, f.stored? key = .ok (some stored) ∧ stored.value = text) ∨
    (((Backend.get now key : Caching FolderStore _).run v f).state =
        (f.removeDocument (f.valuePath key)).1 ∧
      ((Backend.get now key : Caching FolderStore _).run v f).value = .ok (.ok none)) := by
  cases hstored : f.stored? key with
  | error e =>
    have hget := Prod.mk.inj (get_unread v now hstored)
    exact .inl ⟨hget.1, _, hget.2, nofun⟩
  | ok stored? =>
    cases stored? with
    | none =>
      have hget := Prod.mk.inj (get_absent v now hstored)
      exact .inl ⟨hget.1, _, hget.2, nofun⟩
    | some stored =>
      by_cases hlive : now.wall.nanoseconds < stored.expiry.nanoseconds
      · have hget := Prod.mk.inj (get_live v hstored hlive)
        refine .inl ⟨hget.1, _, hget.2, fun text htext => ⟨stored, rfl, ?_⟩⟩
        exact Option.some.inj (Except.ok.inj htext)
      · exact .inr (Prod.mk.inj (get_over v hstored hlive))

end Get

end FolderStore

/-! ### Keys of a service -/

namespace RequestDigest

open FolderStore (Tidy)

variable {d : RequestDigest}

theorem isAlphanum_of_isLowerDigit {c : Char} (h : isLowerDigit c = true) : c.isAlphanum = true :=
  forall_hexDigit (P := fun c => isLowerDigit c = true → c.isAlphanum = true) (by decide)
    (isHexDigit_iff.2 (.inl h)) h

theorem Proper.tidy_append (h : d.Proper) {front : String} (hfront : Tidy front)
    (hshort : front.toList.length ≤ 26) : Tidy (front ++ d.hex) where
  chars := by
    rw [String.toList_append, List.forall_mem_append]
    exact ⟨hfront.chars, fun c hc => .inl (isAlphanum_of_isLowerDigit (h.digits c hc))⟩
  ne_empty hempty := hfront.ne_empty (String.append_eq_empty_iff.1 hempty).1
  short := by
    rw [String.toList_append, List.length_append, h.length]
    omega

theorem Proper.tidy_resultKey (h : d.Proper) : Tidy d.resultKey :=
  h.tidy_append ⟨by simp, by decide, by simp⟩ (by simp)

theorem Proper.tidy_entryKey (h : d.Proper) : Tidy d.entryKey :=
  h.tidy_append ⟨by simp, by decide, by simp⟩ (by simp)

end RequestDigest

theorem Results.tidy_indexKey : FolderStore.Tidy indexKey :=
  ⟨by simp [indexKey], by decide, by simp [indexKey]⟩

end Guillotine
