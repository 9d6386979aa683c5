import Guillotine.Proofs.Cache.FolderStore
import Guillotine.Proofs.Cache.ScoreMap
import Guillotine.Proofs.Documents.Stable
import Guillotine.Proofs.Files.Changes

/-! Additions to the sets of a folder. A set can be asked for after an addition, and added to, as
long as all scores are finite: then the set that was written is read back, whatever its members are
and whatever else is in the folder. A score that is not finite is written all the same, but cannot
be read. From then on the set answers nothing. -/
namespace Guillotine

open Function (update)

/-! ### Sets that were read -/

namespace ScoredSet

variable {s t : ScoredSet} {score : Float} {member : String}

/-- The members are different, and their scores are finite. -/
structure Finite (s : ScoredSet) : Prop where
  nodup : (s.entries.map Prod.fst).Nodup
  scores : ∀ e ∈ s.entries, isFinite e.2 = true

theorem finite_empty : Finite .empty := ⟨List.nodup_nil, nofun⟩

theorem Finite.insert (h : s.Finite) (hscore : isFinite score = true) (member : String) :
    Finite (Table.insert s member score) := by
  refine ⟨Table.nodup_insert h.nodup, fun e he => ?_⟩
  rcases Table.mem_insert he with rfl | hold
  · exact hscore
  · exact h.scores e hold

theorem finite_ofList {es : List (String × Float)} (h : ∀ e ∈ es, isFinite e.2 = true) :
    Finite (Table.ofList es) := by
  have hgo : ∀ s : ScoredSet, s.Finite → Finite (es.foldl (fun t e => t.insert e.1 e.2) s) := by
    induction es with
    | nil => exact fun _ hs => hs
    | cons e es ih =>
      rw [List.forall_mem_cons] at h
      exact fun s hs => ih h.2 _ (hs.insert h.1 e.1)
  exact hgo .empty finite_empty

/-- What is read is finite. -/
theorem finite_of_read? {text : String} (h : read? text = some s) : s.Finite := by
  obtain ⟨j, -, hs⟩ := Option.bind_eq_some_iff.1 h
  cases j with
  | object members =>
    obtain ⟨entries, hentries, hs⟩ := Option.bind_eq_some_iff.1 hs
    obtain rfl := Option.some.inj hs
    refine finite_ofList (forall_of_mapM (fun {a b} hread => ?_) hentries)
    obtain ⟨score, hscore, hread⟩ := Option.bind_eq_some_iff.1 hread
    obtain ⟨member, -, hread⟩ := Option.bind_eq_some_iff.1 hread
    obtain rfl := Option.some.inj hread
    exact isFinite_of_ofJson? hscore
  | _ => cases hs

/-- A set has as many entries as there are members with scores. -/
theorem Holds.ncard_eq {σ : ScoreMap} (h : s.Holds σ) :
    {member | (σ member).isSome}.ncard = s.size := by
  have hmembers : {member | (σ member).isSome} =
      ((s.entries.map Prod.fst).toFinset : Set String) := by
    ext member
    simp [Option.isSome_iff_exists, ← h.mem_iff]
  rw [hmembers, Set.ncard_coe_finset, List.toFinset_card_of_nodup h.nodup, List.length_map]
  rfl

theorem Finite.holds (h : s.Finite) : s.Holds s.get? :=
  ⟨h.nodup, fun _ _ => (Table.get?_eq_some_iff_of_nodup h.nodup).symm⟩

end ScoredSet

namespace FolderStore

variable {f f' : FolderStore} {l : Location} {bytes : ByteArray} {path text set member : String}
  {score : Float} {s t : ScoredSet} {σ : ScoreMap}

/-! ### Documents that were written -/

/-- A text in the place of a document. -/
structure Stores (f : FolderStore) (path text : String) (l : Location) : Prop where
  leads : f.disk.locate path = .ok l
  file : f.disk.at? l = some (.file text.toUTF8)

theorem Stores.readDocument (h : f.Stores path text l) : f.readDocument path = .ok (some text) := by
  unfold FolderStore.readDocument
  rw [Disk.readText_eq_ok_iff.2 ⟨_, h.leads, h.file⟩]

/-- A document that was written is in its place. -/
theorem stores_of_writeDocument (h : f.writeDocument path text = (f', .ok ())) :
    f'.folder = f.folder ∧ f'.blocked = f.blocked ∧ ∃ l, f'.Stores path text l := by
  unfold FolderStore.writeDocument at h
  dsimp only at h
  cases hwrite : f.disk.writeText (f.temporaryPath path) text with
  | error why =>
    rw [hwrite] at h
    cases h
  | ok d =>
    rw [hwrite] at h
    dsimp only at h
    cases hrename : d.renameFile (f.temporaryPath path) path with
    | error why =>
      rw [hrename] at h
      cases h
    | ok d' =>
      rw [hrename] at h
      obtain ⟨rfl, -⟩ := Prod.mk.inj h
      obtain ⟨k, hwritten⟩ := Disk.exists_written hwrite
      obtain ⟨j, l, bytes, hrenamed⟩ := Disk.exists_renamed hrename
      -- What is moved is what was written.
      obtain rfl : j = k := Except.ok.inj (hrenamed.source.symm.trans hwritten.locate)
      have hbytes := hrenamed.file.symm.trans ((hwritten.at? j).trans (if_pos rfl))
      obtain rfl := Node.file.inj (Option.some.inj hbytes)
      exact ⟨rfl, rfl, l, hrenamed.keeps.locate hrenamed.target,
        (hrenamed.at? l).trans (if_pos rfl)⟩

/-- A document is replaced if its temporary file can be written. -/
theorem Stores.writeDocument {old : String} (h : f.Stores path old l)
    (hroom : f.disk.Writable (f.temporaryPath path)) (text : String) :
    ∃ f', f.writeDocument path text = (f', .ok ()) := by
  obtain ⟨k, d, hwritten⟩ := hroom.exists_written text
  have hfree : d.at? l ≠ some .folder := by
    rw [hwritten.at?]
    split
    · nofun
    · exact Disk.not_folder_of_file h.file
  unfold FolderStore.writeDocument
  dsimp only
  rw [hwritten.writeText]
  dsimp only
  rw [Disk.renamed_of_file hwritten.locate (hwritten.keeps.locate h.leads)
    ((hwritten.at? k).trans (if_pos rfl)) hfree]
  exact ⟨_, rfl⟩

/-- Where its temporary file cannot be written, a document stays as it is. -/
theorem writeDocument_of_not_writable (hroom : ¬ f.disk.Writable (f.temporaryPath path))
    (text : String) : ∃ why, f.writeDocument path text =
      ({ f with begun := (f.begun + 1) % UInt64.size }, .error (.file why)) := by
  unfold FolderStore.writeDocument
  dsimp only
  cases hwrite : f.disk.writeText (f.temporaryPath path) text with
  | error why => exact ⟨why, rfl⟩
  | ok d => exact absurd (Disk.writable_of_writeText hwrite) hroom

/-! ### Sets in their documents -/

/-- A set that is read from its document. -/
structure Keeps (f : FolderStore) (set : String) (s : ScoredSet) : Prop where
  unblocked : f.blocked = false
  stored : ∃ l text, f.Stores (f.setPath set) text l ∧ read? text = some s

theorem members_of_stores (h : f.Stores (f.setPath set) text l) :
    f.members set = match (read? text : Option ScoredSet) with
      | some s => .ok s
      | none => .error .malformed := by
  unfold FolderStore.members
  rw [h.readDocument]
  simp only [bind, Except.bind]
  cases (read? text : Option ScoredSet) <;> rfl

theorem Keeps.members (h : f.Keeps set s) : f.members set = .ok s := by
  obtain ⟨l, text, hstores, hread⟩ := h.stored
  rw [members_of_stores hstores, hread]

/-- A set that is read has finite scores. -/
theorem finite_of_members (h : f.members set = .ok s) : s.Finite := by
  unfold FolderStore.members at h
  obtain ⟨text?, -, h⟩ := bind_eq_ok_iff.1 h
  split at h
  next =>
    obtain rfl := Except.ok.inj h
    exact ScoredSet.finite_empty
  next text =>
    split at h
    next hread =>
      obtain rfl := Except.ok.inj h
      exact ScoredSet.finite_of_read? hread
    next => cases h

/-- What an addition that is accepted has written. -/
theorem stores_of_insertScored (hs : f.members set = .ok s)
    (hadd : f.insertScored set score member = (f', .ok ())) : f'.blocked = false ∧
      ∃ l, f'.Stores (f'.setPath set) (write (Table.insert s member score)) l := by
  unfold FolderStore.insertScored at hadd
  split at hadd
  next => cases hadd
  next hblocked =>
    rw [hs] at hadd
    obtain ⟨hfolder, hsame, l, hstores⟩ := stores_of_writeDocument hadd
    refine ⟨hsame.trans (Bool.not_eq_true _ ▸ hblocked), l, ?_⟩
    have hpath : f'.setPath set = f.setPath set := by rw [setPath, setPath, hfolder]
    exact hpath ▸ hstores

/-- An addition of a finite score is in the set that is read afterwards. -/
theorem keeps_of_insertScored (hs : f.members set = .ok s) (hfinite : isFinite score = true)
    (hadd : f.insertScored set score member = (f', .ok ())) :
    ∃ t, f'.Keeps set t ∧ (Table.insert s member score).entries.Perm t.entries := by
  obtain ⟨hunblocked, l, hstores⟩ := stores_of_insertScored hs hadd
  have hinsert := (finite_of_members hs).insert hfinite member
  obtain ⟨t, hread, hperm⟩ := ScoredSet.read?_write_of_finite hinsert.nodup hinsert.scores
  exact ⟨t, ⟨hunblocked, l, _, hstores, hread⟩, hperm⟩

/-! ### Sets that answer -/

/-- All ranks of a set that is kept list its members, each once. -/
theorem Keeps.ranked (h : f.Keeps set s) (hσ : s.Holds σ) {stop : UInt64}
    (hall : s.size ≤ stop.toNat + 1) (hstop : stop.toNat + 1 < UInt64.size) :
    ∃ members, f.ranked set 0 stop = (f, .ok (.ok members)) ∧ members.Nodup ∧
      ∀ member, member ∈ members ↔ (σ member).isSome := by
  have hperm : (s.ranking compareSigned).Perm (s.entries.map Prod.fst) :=
    (List.mergeSort_perm _ _).map Prod.fst
  have hlength : (s.ranking compareSigned).length ≤ stop.toNat + 1 := by
    rw [hperm.length_eq, List.length_map]
    exact hall
  refine ⟨s.ranking compareSigned, ?_, hperm.nodup_iff.2 hσ.nodup, fun member => ?_⟩
  · unfold FolderStore.ranked
    rw [h.unblocked, if_neg Bool.false_ne_true, if_neg (UInt64.not_lt.2 UInt64.zero_le),
      h.members]
    dsimp only
    rw [ScoredSet.slice]
    simp only [UInt64.toNat_zero, Nat.sub_zero, hstop, if_true, List.drop_zero,
      List.take_of_length_le hlength]
  · rw [hperm.mem_iff, Option.isSome_iff_exists]
    simp [← hσ.mem_iff]

/-- Another member is accepted just if the temporary file can be written. -/
theorem Keeps.insertScored_iff (h : f.Keeps set s) (score : Float) (member : String) :
    (f.insertScored set score member).2 = .ok () ↔
      f.disk.Writable (f.temporaryPath (f.setPath set)) := by
  obtain ⟨l, old, hstores, -⟩ := h.stored
  unfold FolderStore.insertScored
  rw [h.unblocked, if_neg Bool.false_ne_true, h.members]
  dsimp only
  by_cases hroom : f.disk.Writable (f.temporaryPath (f.setPath set))
  · obtain ⟨f', hwrite⟩ := hstores.writeDocument hroom (write (Table.insert s member score))
    exact iff_of_true (congrArg Prod.snd hwrite) hroom
  · obtain ⟨why, hwrite⟩ :=
      writeDocument_of_not_writable hroom (write (Table.insert s member score))
    rw [hwrite]
    exact iff_of_false nofun hroom

/-- A set that was not changed is still kept. -/
theorem Keeps.insertScored_fails (h : f.Keeps set s) {e : CacheError}
    (hfails : f.insertScored set score member = (f', .error e)) : f'.Keeps set s := by
  have hroom : ¬ f.disk.Writable (f.temporaryPath (f.setPath set)) := by
    rw [← h.insertScored_iff score member, hfails]
    nofun
  obtain ⟨why, hwrite⟩ := writeDocument_of_not_writable hroom (write (Table.insert s member score))
  unfold FolderStore.insertScored at hfails
  rw [h.unblocked, if_neg Bool.false_ne_true, h.members] at hfails
  dsimp only at hfails
  rw [hwrite] at hfails
  obtain ⟨rfl, -⟩ := Prod.mk.inj hfails
  obtain ⟨l, text, hstores, hread⟩ := h.stored
  exact ⟨h.unblocked, l, text, ⟨hstores.leads, hstores.file⟩, hread⟩

/-! ### Many additions -/

/-- Add a member to a set, and to what it should hold if it is accepted. -/
def addOne (set : String) (p : FolderStore × ScoreMap) (a : Float × String) :
    FolderStore × ScoreMap :=
  match p.1.insertScored set a.1 a.2 with
  | (f, .ok ()) => (f, update p.2 a.2 (some a.1))
  | (f, .error _) => (f, p.2)

/-- Whether all ranks of a set list the members of a map, and more members can be added to it. -/
structure Serves (f : FolderStore) (set : String) (σ : ScoreMap) : Prop where
  ranked : ∀ stop : UInt64, {member | (σ member).isSome}.ncard ≤ stop.toNat + 1 →
    stop.toNat + 1 < UInt64.size →
      ∃ members, f.ranked set 0 stop = (f, .ok (.ok members)) ∧ members.Nodup ∧
        ∀ member, member ∈ members ↔ (σ member).isSome
  grows : ∀ score member, (f.insertScored set score member).2 = .ok () ↔
    f.disk.Writable (f.temporaryPath (f.setPath set))

/-- Whether a set cannot be asked for or added to. -/
structure Rejects (f : FolderStore) (set : String) : Prop where
  ranked : ∀ start stop : UInt64, start ≤ stop →
    f.ranked set start stop = (f, .ok (.error .malformed))
  grows : ∀ score member, f.insertScored set score member = (f, .error .malformed)

/-- A set that is kept holds these scores. -/
def KeepsMap (f : FolderStore) (set : String) (σ : ScoreMap) : Prop :=
  ∃ s, f.Keeps set s ∧ s.Holds σ

theorem KeepsMap.serves (h : f.KeepsMap set σ) : f.Serves set σ := by
  obtain ⟨s, hkeeps, hσ⟩ := h
  exact ⟨fun stop hall => hkeeps.ranked hσ (hσ.ncard_eq ▸ hall), hkeeps.insertScored_iff⟩

theorem KeepsMap.addOne (h : f.KeepsMap set σ) {a : Float × String} (ha : isFinite a.1 = true) :
    (addOne set (f, σ) a).1.KeepsMap set (addOne set (f, σ) a).2 := by
  obtain ⟨s, hkeeps, hσ⟩ := h
  unfold FolderStore.addOne
  split
  next f' hadd =>
    obtain ⟨t, hlater, hperm⟩ := keeps_of_insertScored hkeeps.members ha hadd
    exact ⟨t, hlater, (hσ.insert a.2 a.1).of_perm hperm⟩
  next f' e hfails => exact ⟨s, hkeeps.insertScored_fails hfails, hσ⟩

theorem KeepsMap.addAll (h : f.KeepsMap set σ) {as : List (Float × String)}
    (has : ∀ a ∈ as, isFinite a.1 = true) :
    (as.foldl (FolderStore.addOne set) (f, σ)).1.KeepsMap set
      (as.foldl (FolderStore.addOne set) (f, σ)).2 := by
  induction as generalizing f σ with
  | nil => exact h
  | cons a as ih =>
    rw [List.forall_mem_cons] at has
    exact ih (h.addOne has.1) has.2

/-- A score that is not finite is written, and nothing is read from then on. -/
theorem rejects_of_insertScored (hs : f.members set = .ok s) (hnot : score.isFinite = false)
    (hadd : f.insertScored set score member = (f', .ok ())) : f'.Rejects set := by
  obtain ⟨hunblocked, l, hstores⟩ := stores_of_insertScored hs hadd
  have hread : (read? (write (Table.insert s member score)) : Option ScoredSet) = none :=
    ScoredSet.read?_write_of_not_finite (e := (member, score)) List.mem_cons_self hnot
  have hmembers : f'.members set = .error .malformed := by
    rw [members_of_stores hstores, hread]
  constructor
  · intro start stop hle
    unfold FolderStore.ranked
    rw [hunblocked, if_neg Bool.false_ne_true, if_neg (UInt64.not_lt.2 hle), hmembers]
  · intro score' member'
    unfold FolderStore.insertScored
    rw [hunblocked, if_neg Bool.false_ne_true, hmembers]

/-- After an addition of a finite score that was accepted, a set can be asked for, and it goes on
answering while more members with finite scores are added. After the addition of any other score it
answers nothing. -/
theorem insertScored_ends (hs : f.members set = .ok s)
    (hadd : f.insertScored set score member = (f', .ok ())) :
    (score.isFinite = true → ∀ as : List (Float × String), (∀ a ∈ as, a.1.isFinite = true) →
      let p := as.foldl (addOne set) (f', update s.get? member (some score))
      p.1.Serves set p.2) ∧
    (score.isFinite = false → f'.Rejects set) := by
  refine ⟨fun hfinite as has => ?_, fun hnot => rejects_of_insertScored hs hnot hadd⟩
  obtain ⟨t, hkeeps, hperm⟩ := keeps_of_insertScored hs hfinite hadd
  have hmap : f'.KeepsMap set (update s.get? member (some score)) :=
    ⟨t, hkeeps, ((finite_of_members hs).holds.insert member score).of_perm hperm⟩
  exact (hmap.addAll has).serves

/-- A folder in which nothing is. -/
def vacant : FolderStore := ⟨⟨.ofList [(["cache"], .folder)], []⟩, "cache", false, "4711", 0⟩

theorem sound_vacant : vacant.Sound ["cache"] where
  place :=
    Disk.place_of_plain (by decide) rfl (by decide)
  no_folder name := by
    simp [vacant, Disk.at?, Table.ofList, Table.insert, Table.erase, Table.filter, Table.empty,
      Table.get?]
  writer := ⟨by simp [vacant, isPlainChar], by decide⟩
  counter := by decide
  unblocked := rfl

theorem tidy_s : Tidy "s" := ⟨by simp, by decide, by decide⟩

theorem members_vacant : vacant.members "s" = .ok .empty := by
  unfold FolderStore.members
  have hnone : vacant.Shows ["cache"] (setStem "s") none := by
    simp [Shows, Disk.Shows, vacant, Disk.at?, Table.ofList, Table.insert, Table.erase,
      Table.filter, Table.empty, Table.get?]
  rw [setPath_eq, sound_vacant.readDocument tidy_s.stem_setStem hnone]
  rfl

/-- Anything can be added to a set in a folder in which nothing is. -/
theorem insertScored_vacant (score : Float) (member : String) :
    ∃ f', vacant.insertScored "s" score member = (f', .ok ()) := by
  obtain ⟨f', hwrite, -⟩ := sound_vacant.writeDocument tidy_s.stem_setStem
    (write (Table.insert (.empty : ScoredSet) member score))
  refine ⟨f', ?_⟩
  unfold FolderStore.insertScored
  rw [members_vacant, setPath_eq]
  exact hwrite

theorem insertScored_ends_vacant : vacant.members "s" = .ok .empty ∧
    ∃ f', vacant.insertScored "s" 1 "p" = (f', .ok ()) ∧
      f'.Serves "s" (update Table.empty.get? "p" (some 1)) := by
  obtain ⟨f', hadd⟩ := insertScored_vacant 1 "p"
  exact ⟨members_vacant, f', hadd,
    (insertScored_ends members_vacant hadd).1 (by decide +kernel) [] nofun⟩

/-- A set can be broken by an addition that is accepted. -/
theorem accepted_without_answer : vacant.members "s" = .ok .empty ∧
    ∃ f', vacant.insertScored "s" (1 / 0) "p" = (f', .ok ()) ∧
      f'.ranked "s" 0 9 = (f', .ok (.error .malformed)) ∧
      f'.insertScored "s" 1 "q" = (f', .error .malformed) := by
  obtain ⟨f', hadd⟩ := insertScored_vacant (1 / 0) "p"
  have hrejects := rejects_of_insertScored members_vacant (by decide +kernel) hadd
  exact ⟨members_vacant, f', hadd, hrejects.ranked 0 9 (by decide), hrejects.grows 1 "q"⟩

end FolderStore

end Guillotine
