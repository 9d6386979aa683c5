import Guillotine.Proofs.Cache.Results
import Guillotine.Proofs.Cache.Scores
import Guillotine.Proofs.Calendar.Timestamp
import Guillotine.Proofs.Documents.Entry

/-! Pages of the latest results. What is listed of a memory depends on what it shows at the time,
and looking does not change that: it drops only what is over. So the lists for two stretches of the
index, one after the other, make up the list for both of them together. -/
namespace Guillotine

namespace MemoryStore

variable {m m' : MemoryStore} {ts : List Moment} {now later : Moment} {key other : String}

/-! ### Looking -/

/-- The memories that are left of one after looking under some keys at some of these moments. -/
inductive Left (ts : List Moment) (m : MemoryStore) : MemoryStore → Prop
  | all : Left ts m m
  | get {m' : MemoryStore} {now : Moment} (h : Left ts m m') (hnow : now ∈ ts) (key : String) :
    Left ts m (m'.get now key).1

/-- No text's time ends between these moments. -/
def Unaged (ts : List Moment) (m : MemoryStore) : Prop :=
  ∀ e ∈ m.values.entries, ∀ now ∈ ts, ∀ later ∈ ts, isLive now e.2 = isLive later e.2

/-- What is found later is found there after looking as well. -/
theorem find?_get (hsame : ∀ k, m.values.get? key = some k → isLive now k = isLive later k) :
    (m.get now key).1.find? later other = m.find? later other := by
  unfold get
  split
  · rfl
  · split
    · rfl
    · next k hk =>
      split
      · rfl
      · next hover =>
        rw [find?_eq, find?_eq, Table.get?_erase]
        split_ifs with hblocked hother
        · rfl
        · rw [hother, hk, Option.filter_some, ← hsame k hk, if_neg hover]
          rfl
        · rfl

theorem Unaged.find?_eq (h : m.Unaged ts) (hnow : now ∈ ts) (hlater : later ∈ ts) :
    m.find? now key = m.find? later key := by
  rw [MemoryStore.find?_eq, MemoryStore.find?_eq]
  cases hget : m.values.get? key with
  | none => rfl
  | some k =>
    rw [Option.filter_some, Option.filter_some, h _ (Table.mem_of_get? hget) now hnow later hlater]

theorem Left.unaged (h : Left ts m m') (hm : m.Unaged ts) : m'.Unaged ts := by
  induction h with
  | all => exact hm
  | get h hnow key ih => exact fun e he => ih e (mem_get he)

/-- What is left is what can be found. -/
theorem Left.find? (h : Left ts m m') (hm : m.Unaged ts) (hlater : later ∈ ts) :
    m'.find? later key = m.find? later key := by
  induction h with
  | all => rfl
  | get h hnow other ih =>
    refine Eq.trans (find?_get fun k hk => ?_) ih
    exact h.unaged hm _ (Table.mem_of_get? hk) _ hnow _ hlater

theorem Left.sets (h : Left ts m m') : m'.sets = m.sets ∧ m'.setsBlocked = m.setsBlocked := by
  induction h with
  | all => exact ⟨rfl, rfl⟩
  | get h hnow key ih => exact ⟨get_sets.1.trans ih.1, get_sets.2.trans ih.2⟩

end MemoryStore

namespace Results

open MemoryStore Run

variable {v : Verbosity} {m a : MemoryStore} {ts : List Moment} {now later : Moment}
  {d : RequestDigest} {offset limit n k : UInt64}

/-! ### Listing -/

/-- The entry about a result that a memory holds: what is read from the text that is found. -/
def told? (m : MemoryStore) (now : Moment) (d : RequestDigest) : Option Entry :=
  (m.find? now d.entryKey).bind read?

/-- What is listed for a digest. -/
def listed? (m : MemoryStore) (now : Moment) (d : RequestDigest) : Option Entry :=
  (told? m now d).or ((held? m now d).map fun r => ⟨d.hex, now.wall, r⟩)

/-- What is listed for those of some members of the index that are digests. -/
def listing (m : MemoryStore) (now : Moment) (members : List String) : List Entry :=
  members.filterMap fun hex => (RequestDigest.ofHex? hex).bind (listed? m now)

/-- The members of the index at `limit` places from `offset` on. -/
def places (m : MemoryStore) (offset limit : Nat) : List String :=
  if m.setsBlocked then []
  else (((m.members indexKey).ranking compareValues).drop offset).take limit

/-- What is looked for in a memory that others have looked into is found as before. -/
theorem document?_outcome {α : Type} [OfJson α] (key : String) (hm : m.Unaged ts)
    (ha : Left ts m a) (hnow : now ∈ ts) : ∃ b, (document? now key v a).outcome =
      (b, .ok ((m.find? now key).bind fun text => (read? text : Option α))) ∧ Left ts m b := by
  refine ⟨_, ?_, ha.get hnow key⟩
  rw [document?_eq_fetch, fetch_outcome, ha.find? hm hnow]

theorem entryOf?_outcome (hm : m.Unaged ts) (ha : Left ts m a) (hnow : now ∈ ts) :
    ∃ b, (entryOf? now d v a).outcome = (b, .ok (listed? m now d)) ∧ Left ts m b := by
  obtain ⟨b, hentry, hb⟩ := document?_outcome (v := v) (α := Entry) d.entryKey hm ha hnow
  unfold entryOf? listed?
  rw [outcome_bind_ok hentry, ← told?]
  cases told? m now d with
  | some e => exact ⟨b, rfl, hb⟩
  | none =>
    obtain ⟨c, hresult, hc⟩ := document?_outcome (v := v) (α := Report) d.resultKey hm hb hnow
    dsimp only
    rw [outcome_bind_ok hresult, ← held?]
    cases held? m now d with
    | none => exact ⟨c, rfl, hc⟩
    | some r => exact ⟨c, outcome_note_bind, hc⟩

theorem entries_outcome (hm : m.Unaged ts) (ha : Left ts m a) (hnow : now ∈ ts)
    (members : List String) : ∃ b,
      (entries now members v a).outcome = (b, .ok (listing m now members)) ∧ Left ts m b := by
  unfold listing
  induction members generalizing a with
  | nil => exact ⟨a, rfl, ha⟩
  | cons hex members ih =>
    rw [entries, List.filterMap_cons]
    cases RequestDigest.ofHex? hex with
    | none => exact ih ha
    | some d =>
      obtain ⟨b, hentry, hb⟩ := entryOf?_outcome (v := v) (d := d) hm ha hnow
      obtain ⟨c, hrest, hc⟩ := ih hb
      refine ⟨c, ?_, hc⟩
      dsimp only
      rw [outcome_bind_ok hentry, Option.bind_some]
      cases listed? m now d with
      | none => exact hrest
      | some e =>
        dsimp only
        rw [outcome_bind_ok hrest]
        rfl

/-- What is returned is what is listed for those places of the index. -/
theorem recent_outcome (offset limit : UInt64) (hm : m.Unaged ts) (ha : Left ts m a)
    (hnow : now ∈ ts) (hsum : offset.toNat + limit.toNat < UInt64.size) : ∃ b,
      (recent now offset limit v a).outcome =
        (b, .ok (listing m now (places m offset.toNat limit.toNat))) ∧ Left ts m b := by
  obtain ⟨hsets, hblocked⟩ := ha.sets
  unfold recent places
  by_cases hlimit : limit = 0
  · subst hlimit
    refine ⟨a, ?_, ha⟩
    rw [if_pos rfl, UInt64.toNat_zero, List.take_zero, ite_self]
    rfl
  · rw [if_neg hlimit, if_neg (Nat.not_le_of_lt hsum), ← hblocked]
    have hlast := toNat_lastRank hlimit hsum
    have hranked : (attempt (Backend.ranked indexKey offset (offset + limit - 1)) v a).outcome =
        a.ranked indexKey offset (offset + limit - 1) := rfl
    cases hopen : a.setsBlocked with
    | true =>
      rw [MemoryStore.ranked, if_pos hopen] at hranked
      refine ⟨a, ?_, ha⟩
      rw [outcome_bind_ok hranked]
      exact outcome_note_bind
    | false =>
      have hpos : limit.toNat ≠ 0 := fun h => hlimit (UInt64.toNat_inj.1 h)
      have hcount : (offset + limit - 1).toNat - offset.toNat + 1 = limit.toNat := by omega
      rw [ranked_eq hopen (UInt64.le_iff_toNat_le.2 (by omega)) (by omega), hcount,
        MemoryStore.members, hsets, ← MemoryStore.members] at hranked
      rw [outcome_bind_ok hranked]
      exact entries_outcome hm ha hnow _

/-- Entries that are the same, apart from the time of those that are made anew from a result. -/
inductive SameButTime (m : MemoryStore) (now : Moment) : Entry → Entry → Prop
  | told (e : Entry) : SameButTime m now e e
  | rebuilt {d : RequestDigest} {r : Report} (hentry : told? m now d = none)
    (hresult : held? m now d = some r) (t u : Timestamp) :
    SameButTime m now ⟨d.hex, t, r⟩ ⟨d.hex, u, r⟩

theorem listed?_eq (hm : m.Unaged ts) (hnow : now ∈ ts) (hlater : later ∈ ts) (d : RequestDigest) :
    listed? m later d =
      (told? m now d).or ((held? m now d).map fun r => ⟨d.hex, later.wall, r⟩) := by
  rw [listed?, told?, held?, hm.find?_eq hlater hnow, hm.find?_eq hlater hnow]
  rfl

theorem places_add (m : MemoryStore) (offset n k : Nat) :
    places m offset (n + k) = places m offset n ++ places m (offset + n) k := by
  unfold places
  split
  · rfl
  · rw [List.take_add, List.drop_drop]

theorem listing_append (m : MemoryStore) (now : Moment) (xs ys : List String) :
    listing m now (xs ++ ys) = listing m now xs ++ listing m now ys :=
  List.filterMap_append

theorem length_places_le (m : MemoryStore) (offset n : Nat) : (places m offset n).length ≤ n := by
  unfold places
  split
  · exact Nat.zero_le _
  · exact List.length_take_le _ _

/-- What is listed at one moment is what is listed at another, apart from the time of entries that
are made anew. -/
theorem listing_sameButTime (hm : m.Unaged ts) (hnow : now ∈ ts) {first second : Moment}
    (hfirst : first ∈ ts) (hsecond : second ∈ ts) (members : List String) :
    List.Forall₂ (SameButTime m now) (listing m first members) (listing m second members) := by
  refine List.rel_filterMap (R := Eq) ?_ (List.forall₂_eq_eq_eq ▸ rfl)
  rintro hex _ rfl
  dsimp only
  cases RequestDigest.ofHex? hex with
  | none => exact .none
  | some d =>
    rw [Option.bind_some, Option.bind_some, listed?_eq hm hnow hfirst, listed?_eq hm hnow hsecond]
    cases hentry : told? m now d with
    | some e => exact .some (.told e)
    | none =>
      cases hresult : held? m now d with
      | none => exact .none
      | some r => exact .some (.rebuilt hentry hresult _ _)

/-- While no text's time ends, the lists for two stretches of the index that follow each other make
up the list for both of them, apart from the time of entries that are made anew, whichever is asked
for first and whatever else is looked for meanwhile. This list is what the memory shows for the
places, and a list has no more entries than its stretch has places. -/
theorem pages_make_up (v : Verbosity) {m : MemoryStore} {ts : List Moment} (hm : m.Unaged ts)
    {now next later : Moment} (hts : now ∈ ts ∧ next ∈ ts ∧ later ∈ ts) {offset n k : UInt64}
    (hsum : offset.toNat + n.toNat + k.toNat < UInt64.size) {a b c : MemoryStore}
    (ha : Left ts m a) (hb : Left ts m b) (hc : Left ts m c) :
    ∃ a' page b' rest c' whole,
      (recent now offset n v a).outcome = (a', .ok page) ∧ Left ts m a' ∧
      (recent next (offset + n) k v b).outcome = (b', .ok rest) ∧ Left ts m b' ∧
      (recent later offset (n + k) v c).outcome = (c', .ok whole) ∧ Left ts m c' ∧
      List.Forall₂ (SameButTime m now) (page ++ rest) whole ∧ page.length ≤ n.toNat ∧
      whole = listing m later (places m offset.toNat (n.toNat + k.toNat)) := by
  obtain ⟨hnow, hnext, hlater⟩ := hts
  have hfirst : offset.toNat + n.toNat < UInt64.size := by omega
  have hlast : n.toNat + k.toNat < UInt64.size := by omega
  have hoffset : (offset + n).toNat = offset.toNat + n.toNat := by
    rw [UInt64.toNat_add, Nat.mod_eq_of_lt hfirst]
  have hboth : (n + k).toNat = n.toNat + k.toNat := by
    rw [UInt64.toNat_add, Nat.mod_eq_of_lt hlast]
  obtain ⟨a', hpage, ha'⟩ := recent_outcome (v := v) offset n hm ha hnow hfirst
  obtain ⟨b', hrest, hb'⟩ := recent_outcome (v := v) (offset + n) k hm hb hnext (by omega)
  obtain ⟨c', hwhole, hc'⟩ := recent_outcome (v := v) offset (n + k) hm hc hlater (by omega)
  rw [hoffset] at hrest
  rw [hboth] at hwhole
  refine ⟨a', _, b', _, c', _, hpage, ha', hrest, hb', hwhole, hc', ?_, ?_, rfl⟩
  · rw [places_add, listing_append]
    exact List.rel_append (listing_sameButTime hm hnow hnow hlater _)
      (listing_sameButTime hm hnow hnext hlater _)
  · exact (List.length_filterMap_le _ _).trans (length_places_le _ _ _)

/-- A digest of one letter. -/
def oneLetter (c : Char) : RequestDigest := ⟨String.ofList (List.replicate 64 c)⟩

/-- A memory that ranks what is no digest, a digest in capital letters of which only the result is
left, one whose entry cannot be read, and one whose entry can. -/
def archive (result entry : String) : MemoryStore where
  values := ⟨[((oneLetter 'a').entryKey, ⟨"", 0⟩), ((oneLetter 'a').resultKey, ⟨result, 9⟩),
    ((oneLetter 'b').entryKey, ⟨"?", 9⟩), ((oneLetter 'c').entryKey, ⟨entry, 9⟩)]⟩
  sets := ⟨[(indexKey, ⟨[("stray", 4), ((oneLetter 'A').hex, 3), ((oneLetter 'b').hex, 2),
    ((oneLetter 'c').hex, 1)]⟩)]⟩
  valuesBlocked := false
  setsBlocked := false

def seconds (i : Nat) : Moment := ⟨⟨i⟩, i⟩

def blankReport : Report := ⟨⟨"", 0, 0, 0, ""⟩, ⟨[], 0⟩, [], [], false, ""⟩

def blankEntry : Entry := ⟨(oneLetter 'c').hex, ⟨0⟩, blankReport⟩

section Archive

variable {result entry : String}

theorem unaged_archive : (archive result entry).Unaged [seconds 1, seconds 2, seconds 3] := by
  simp [Unaged, archive, isLive, seconds]

theorem places_archive : places (archive result entry) 0 4 =
    ["stray", (oneLetter 'A').hex, (oneLetter 'b').hex, (oneLetter 'c').hex] := by
  have hmembers : (archive result entry).members indexKey =
      ⟨[("stray", 4), ((oneLetter 'A').hex, 3), ((oneLetter 'b').hex, 2),
        ((oneLetter 'c').hex, 1)]⟩ := rfl
  show ((((archive result entry).members indexKey).ranking compareValues).drop 0).take 4 = _
  rw [hmembers, ScoredSet.ranking_of_pairwise (by decide +kernel)]
  rfl

theorem listed_archive {r : Report} {e : Entry} (hresult : read? result = some r)
    (hentry : read? entry = some e) :
    listing (archive result entry) (seconds 3) (places (archive result entry) 0 4) =
      [⟨(oneLetter 'a').hex, (seconds 3).wall, r⟩, e] := by
  have hstray : RequestDigest.ofHex? "stray" = none := by decide +kernel
  have ha : RequestDigest.ofHex? (oneLetter 'A').hex = some (oneLetter 'a') := by decide +kernel
  have hb : RequestDigest.ofHex? (oneLetter 'b').hex = some (oneLetter 'b') := by decide +kernel
  have hc : RequestDigest.ofHex? (oneLetter 'c').hex = some (oneLetter 'c') := by decide +kernel
  have hrebuilt : listed? (archive result entry) (seconds 3) (oneLetter 'a') =
      some ⟨(oneLetter 'a').hex, (seconds 3).wall, r⟩ := by
    show (Option.bind none read?).or ((Option.bind (some result) read?).map _) = _
    rw [Option.bind_some, hresult]
    rfl
  have hlost : listed? (archive result entry) (seconds 3) (oneLetter 'b') = none := by
    have hbroken : (read? "?" : Option Entry) = none := rfl
    show (Option.bind (some "?") read?).or ((Option.bind none read?).map _) = _
    rw [Option.bind_some, hbroken]
    rfl
  have htold : listed? (archive result entry) (seconds 3) (oneLetter 'c') = some e := by
    show (Option.bind (some entry) read?).or ((Option.bind none read?).map _) = _
    rw [Option.bind_some, hentry]
    rfl
  rw [places_archive, listing]
  simp only [List.filterMap_cons, List.filterMap_nil, hstray, ha, hb, hc, Option.bind_none,
    Option.bind_some, hrebuilt, hlost, htold]

end Archive

theorem pages_make_up_archive :
    let m := archive (Guillotine.write blankReport) (Guillotine.write blankEntry)
    m.Unaged [seconds 1, seconds 2, seconds 3] ∧ ∃ page rest whole,
      (recent (seconds 1) 0 2 none m).outcome.2 = .ok page ∧
      (recent (seconds 2) (0 + 2) 2 none (m.get (seconds 1) (oneLetter 'a').entryKey).1).outcome.2 =
        .ok rest ∧
      (recent (seconds 3) 0 (2 + 2) none m).outcome.2 = .ok whole ∧
      List.Forall₂ (SameButTime m (seconds 1)) (page ++ rest) whole ∧ page.length ≤ 2 ∧
      whole = [⟨(oneLetter 'a').hex, (seconds 3).wall, blankReport⟩, blankEntry] := by
  intro m
  have hm : m.Unaged [seconds 1, seconds 2, seconds 3] := unaged_archive
  have hts : seconds 1 ∈ [seconds 1, seconds 2, seconds 3] ∧
      seconds 2 ∈ [seconds 1, seconds 2, seconds 3] ∧
      seconds 3 ∈ [seconds 1, seconds 2, seconds 3] := by simp
  have hsum : (0 : UInt64).toNat + (2 : UInt64).toNat + (2 : UInt64).toNat < UInt64.size := by
    decide
  obtain ⟨a, page, b, rest, c, whole, hpage, -, hrest, -, hwhole, -, hsame, hlength, hlisted⟩ :=
    pages_make_up none hm hts hsum .all (Left.all.get hts.1 (oneLetter 'a').entryKey) .all
  have hzero : (0 : Float).isFinite = true := by decide +kernel
  have hfinite : isFinite blankReport = true := by simp [blankReport, isFinite, hzero]
  have hresult : (read? (Guillotine.write blankReport) : Option Report) = some blankReport := by
    rw [read?_write, if_pos hfinite]
  have hentry : (read? (Guillotine.write blankEntry) : Option Entry) = some blankEntry := by
    have htime : blankEntry.timestamp.inRange = true := by decide
    rw [Entry.read?_write, Timestamp.ofText?_text htime, Option.bind_some]
    exact if_pos hfinite
  exact ⟨hm, page, rest, whole, congrArg Prod.snd hpage, congrArg Prod.snd hrest,
    congrArg Prod.snd hwhole, hsame, hlength, hlisted.trans (listed_archive hresult hentry)⟩

end Results

end Guillotine
