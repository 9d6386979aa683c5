import Guillotine.Proofs.Cache.Composed
import Guillotine.Proofs.Cache.FolderStore
import Guillotine.Proofs.Cache.Results

/-! A folder as the mirror image of a memory, as long as the two clocks go alike. Under each key
both hold the same text with the same end of its time, except that the folder may go on holding a
text whose time is over; and their sets have the same entries. Each call to the two finds the same,
and leaves the folder as a mirror image again. -/
namespace Guillotine

open Binary64 (Ordinary)
open Run

variable {l : Location} {offset : Int} {start later : Nat} {m : MemoryStore} {f f' : FolderStore}
  {key text set member : String} {score low high : Float} {now : Moment} {ttl : UInt64}

/-! ### Steps -/

namespace Caching

variable {σ τ α : Type} {R : σ → τ → Prop}

theorem inStep_ofStep {x : σ → σ × Checked (Except CacheError α)}
    {y : τ → τ × Checked (Except CacheError α)} (h : ∀ m n, R m n → ∃ m' n' w, x m = (m', w) ∧
      y n = (n', w) ∧ R m' n') : InStep R (fun _ => True) (ofStep x).run (ofStep y).run :=
  .of_outcomes fun _ => h

theorem inStep_ofSafeStep {x : σ → σ × Except CacheError α} {y : τ → τ × Except CacheError α}
    (h : ∀ m n, R m n → ∃ m' n' w, x m = (m', w) ∧ y n = (n', w) ∧ R m' n') :
    InStep R (fun _ => True) (ofSafeStep x).run (ofSafeStep y).run := by
  refine inStep_ofStep fun m n hmn => ?_
  obtain ⟨m', n', w, hx, hy, hrelated⟩ := h m n hmn
  rw [hx, hy]
  exact ⟨m', n', .ok w, rfl, rfl, hrelated⟩

end Caching

/-! ### What is held -/

/-- What a folder may hold under a key for what a memory holds there, from some uptime on. -/
inductive Reflects (offset : Int) (start : Nat) : Option Kept → Option StoredValue → Prop
  | both {k : Kept} {s : StoredValue} (htext : s.value = k.text)
    (htime : s.expiry.nanoseconds = k.deadline + offset) : Reflects offset start (some k) (some s)
  | neither : Reflects offset start none none
  | past {s : StoredValue} (hpast : s.expiry.nanoseconds ≤ start + offset) :
    Reflects offset start none (some s)

theorem Reflects.mono {k? : Option Kept} {s? : Option StoredValue} (h : Reflects offset start k? s?)
    (hlater : start ≤ later) : Reflects offset later k? s? := by
  cases h with
  | both htext htime => exact .both htext htime
  | neither => exact .neither
  | past hpast => exact .past (by omega)

/-- What is left of a text of a memory when its time is over. -/
theorem Reflects.filter {k? : Option Kept} {s? : Option StoredValue}
    (h : Reflects offset now.uptime k? s?) :
    Reflects offset now.uptime (k?.filter fun k => MemoryStore.isLive now k) s? := by
  cases h with
  | @both k s htext htime =>
    rw [Option.filter_some]
    split
    · exact .both htext htime
    next hlive =>
      have hdeadline : ¬ now.uptime < k.deadline := fun h => hlive (decide_eq_true h)
      exact .past (by omega)
  | neither => exact .neither
  | past hpast => exact .past hpast

/-- A folder at a place is the mirror image of a memory from some uptime on. -/
structure Mirrors (l : Location) (offset : Int) (start : Nat) (m : MemoryStore) (f : FolderStore) :
    Prop where
  sound : f.Sound l
  valuesOpen : m.valuesBlocked = false
  setsOpen : m.setsBlocked = false
  nodup : (m.values.entries.map Prod.fst).Nodup
  texts : ∀ key, FolderStore.Tidy key → ∃ s? : Option StoredValue,
    f.Shows l (FolderStore.sanitize key) (s?.map write) ∧
      (∀ s, s? = some s → s.expiry.inRange = true) ∧
      Reflects offset start (m.values.get? key) s?
  sets : ∀ set, FolderStore.Tidy set → ∃ s? : Option ScoredSet,
    f.Shows l (FolderStore.setStem set) (s?.map write) ∧ (s?.getD .empty).Orderly ∧
      (s?.getD .empty).entries.Perm ((m.sets.get? set).getD .empty).entries

namespace Mirrors

open FolderStore (Tidy Puts sanitize setStem)

/-- A folder in which nothing is mirrors an empty memory. -/
theorem empty (h : f.Sound l) (hempty : ∀ name, f.disk.at? (l ++ [name]) = none) :
    Mirrors l offset start MemoryStore.empty f where
  sound := h
  valuesOpen := rfl
  setsOpen := rfl
  nodup := List.nodup_nil
  texts _ _ := ⟨none, hempty _, nofun, .neither⟩
  sets _ _ := ⟨none, hempty _, ScoredSet.orderly_empty, .refl _⟩

theorem mono (h : Mirrors l offset start m f) (hlater : start ≤ later) :
    Mirrors l offset later m f := by
  refine { h with texts := fun key hkey => ?_ }
  obtain ⟨s?, hshows, hrange, hreflects⟩ := h.texts key hkey
  exact ⟨s?, hshows, hrange, hreflects.mono hlater⟩

/-! ### Changes of one document -/

/-- A change of the text under one key, where the memory may drop texts whose time is over. -/
theorem of_text (s? : Option StoredValue) {values : Table String Kept}
    (h : Mirrors l offset start m f) (hkey : Tidy key)
    (hputs : Puts l (sanitize key) (s?.map write) f f')
    (hrange : ∀ s, s? = some s → s.expiry.inRange = true)
    (hnodup : (values.entries.map Prod.fst).Nodup)
    (hthis : Reflects offset start (values.get? key) s?)
    (hothers : ∀ other, other ≠ key → ∀ s?, Reflects offset start (m.values.get? other) s? →
      Reflects offset start (values.get? other) s?) :
    Mirrors l offset start { m with values } f' where
  sound := hputs.sound
  valuesOpen := h.valuesOpen
  setsOpen := h.setsOpen
  nodup := hnodup
  texts other hother := by
    by_cases heq : other = key
    · subst heq
      exact ⟨s?, hputs.shows, hrange, hthis⟩
    · obtain ⟨t?, hshows, htimes, hreflects⟩ := h.texts other hother
      have hstem : sanitize other ≠ sanitize key := fun hsame =>
        heq (hother.sanitize_inj hkey hsame)
      exact ⟨t?, hputs.others _ _ hstem hshows, htimes, hothers other heq t? hreflects⟩
  sets set hset := by
    obtain ⟨t?, hshows, horderly, hperm⟩ := h.sets set hset
    exact ⟨t?, hputs.others _ _ hkey.sanitize_ne_setStem.symm hshows, horderly, hperm⟩

/-- A change of one set. -/
theorem of_set (s? : Option ScoredSet) {t : ScoredSet} (h : Mirrors l offset start m f)
    (hset : Tidy set) (hputs : Puts l (setStem set) (s?.map write) f f')
    (horderly : (s?.getD .empty).Orderly) (hperm : (s?.getD .empty).entries.Perm t.entries) :
    Mirrors l offset start { m with sets := m.sets.insert set t } f' where
  sound := hputs.sound
  valuesOpen := h.valuesOpen
  setsOpen := h.setsOpen
  nodup := h.nodup
  texts key hkey := by
    obtain ⟨t?, hshows, htimes, hreflects⟩ := h.texts key hkey
    exact ⟨t?, hputs.others _ _ hkey.sanitize_ne_setStem hshows, htimes, hreflects⟩
  sets other hother := by
    rw [Table.get?_insert]
    by_cases heq : other = set
    · subst heq
      exact ⟨s?, hputs.shows, horderly, by rwa [if_pos rfl]⟩
    · obtain ⟨t?, hshows, horderly, hperm⟩ := h.sets other hother
      have hstem : setStem other ≠ setStem set := fun hsame =>
        heq (FolderStore.setStem_inj hother hset hsame)
      exact ⟨t?, hputs.others _ _ hstem hshows, horderly, by rwa [if_neg heq]⟩

/-! ### Texts -/

/-- A text that the folder removes, and that the memory has no longer. -/
theorem dropped {s : StoredValue} {values : Table String Kept} (h : Mirrors l offset start m f)
    (hkey : Tidy key) (hshows : f.Shows l (sanitize key) (some (write s)))
    (hnodup : (values.entries.map Prod.fst).Nodup) (hthis : values.get? key = none)
    (hothers : ∀ other, other ≠ key → values.get? other = m.values.get? other) :
    Mirrors l offset start { m with values } (f.removeDocument (f.valuePath key)).1 := by
  obtain ⟨f', hremove, hputs⟩ := h.sound.removeDocument hkey.stem_sanitize hshows
  change f.removeDocument (f.valuePath key) = _ at hremove
  rw [hremove]
  refine h.of_text none hkey hputs nofun hnodup ?_ ?_
  · rw [hthis]
    exact .neither
  · intro other hother s? hreflects
    rwa [hothers other hother]

/-- The same text is found in both, and a text whose time is over is dropped. -/
theorem get_inStep (hclock : now.wall.nanoseconds = now.uptime + offset) (hkey : Tidy key) :
    InStep (Mirrors l offset now.uptime) (fun _ => True)
      (Backend.get now key : Caching MemoryStore _).run
      (Backend.get now key : Caching FolderStore _).run := by
  refine .of_outcomes fun v m f h => ?_
  obtain ⟨s?, hshows, hrange, hreflects⟩ := h.texts key hkey
  have hstored := h.sound.stored? hkey hshows hrange
  have hmemory : ((Backend.get now key : Caching MemoryStore _).run v m).outcome =
      ((m.get now key).1, .ok (m.get now key).2) := rfl
  refine hmemory ▸ ?_
  cases hk : m.values.get? key with
  | none =>
    have hget : m.get now key = (m, .ok none) := by
      simp [MemoryStore.get, h.valuesOpen, hk]
    rw [hget]
    rw [hk] at hreflects
    cases hreflects with
    | neither => exact ⟨m, f, _, rfl, FolderStore.get_absent v _ hstored, h⟩
    | past hpast =>
      exact ⟨m, _, _, rfl, FolderStore.get_over v hstored (by omega),
        h.dropped hkey hshows h.nodup hk fun _ _ => rfl⟩
  | some k =>
    rw [hk] at hreflects
    cases hreflects with
    | @both _ s htext htime =>
      by_cases hlive : now.uptime < k.deadline
      · have hget : m.get now key = (m, .ok (some s.value)) := by
          simp [MemoryStore.get, h.valuesOpen, hk, MemoryStore.isLive, hlive, htext]
        rw [hget]
        exact ⟨m, f, _, rfl, FolderStore.get_live v hstored (by omega), h⟩
      · have hget : m.get now key = ({ m with values := m.values.erase key }, .ok none) := by
          simp [MemoryStore.get, h.valuesOpen, hk, MemoryStore.isLive, hlive]
        rw [hget]
        refine ⟨_, _, _, rfl, FolderStore.get_over v hstored (by omega), ?_⟩
        refine h.dropped hkey hshows (Table.nodup_filter h.nodup) ?_ ?_
        · rw [Table.get?_erase, if_pos rfl]
        · intro other hother
          rw [Table.get?_erase, if_neg hother]

/-- Both hold that the time of a text ends at the same moment. -/
theorem expiry_eq {deadline : Nat} {expiry : Timestamp}
    (hclock : now.wall.nanoseconds = now.uptime + offset)
    (hdeadline : MemoryStore.deadline now ttl = .ok deadline)
    (hexpiry : FolderStore.expiry? now ttl = some expiry) :
    expiry.nanoseconds = deadline + offset := by
  have hend : deadline = now.uptime + ttl.toNat * 1000000000 := by
    unfold MemoryStore.deadline at hdeadline
    dsimp only at hdeadline
    split at hdeadline
    next => exact (Except.ok.inj hdeadline).symm
    next => cases hdeadline
  rw [(FolderStore.expiry?_eq_some hexpiry).1, Timestamp.nanosPerSecond]
  dsimp only
  omega

/-- A text that is kept is in both, where the end of its time can be represented. -/
theorem set_inStep {deadline : Nat} {expiry : Timestamp}
    (hclock : now.wall.nanoseconds = now.uptime + offset) (hkey : Tidy key)
    (hdeadline : MemoryStore.deadline now ttl = .ok deadline)
    (hexpiry : FolderStore.expiry? now ttl = some expiry) :
    InStep (Mirrors l offset now.uptime) (fun _ => True)
      (Backend.set now key text ttl : Caching MemoryStore _).run
      (Backend.set now key text ttl : Caching FolderStore _).run := by
  refine Caching.inStep_ofStep fun m f h => ?_
  obtain ⟨f', hwrite, hputs⟩ :=
    h.sound.writeDocument hkey.stem_sanitize (write (⟨text, expiry⟩ : StoredValue))
  have hfolder : f.setValue now key text ttl = (f', .ok ()) := by
    unfold FolderStore.setValue
    rw [hexpiry]
    exact hwrite
  have hmemory : m.set now key text ttl =
      ({ m with values :=
          (m.values.filter fun _ k => MemoryStore.isLive now k).insert key ⟨text, deadline⟩ },
        .ok (.ok ())) := by
    simp [MemoryStore.set, h.valuesOpen, hdeadline]
  refine ⟨_, f', _, hmemory, by dsimp only; rw [hfolder], ?_⟩
  refine h.of_text (some ⟨text, expiry⟩) hkey hputs ?_ ?_ ?_ ?_
  · rintro s ⟨⟩
    exact (FolderStore.expiry?_eq_some hexpiry).2
  · exact Table.nodup_insert (Table.nodup_filter h.nodup)
  · rw [Table.get?_insert, if_pos rfl]
    exact .both rfl (expiry_eq hclock hdeadline hexpiry)
  · intro other hother s? hreflects
    rw [Table.get?_insert, if_neg hother, Table.get?_filter_of_nodup h.nodup]
    exact hreflects.filter

/-! ### Sets -/

/-- A set is read from the folder in some order of its own. -/
theorem members (h : Mirrors l offset start m f) (hset : Tidy set) :
    ∃ t, f.members set = .ok t ∧ t.Orderly ∧
      t.entries.Perm ((m.sets.get? set).getD .empty).entries := by
  obtain ⟨s?, hshows, horderly, hperm⟩ := h.sets set hset
  obtain ⟨t, hmembers, hstored⟩ := h.sound.members hset hshows horderly
  exact ⟨t, hmembers, horderly.of_perm hstored, hstored.symm.trans hperm⟩

/-- A set is written to the folder in the order in which it was read. -/
theorem write_set {s t : ScoredSet} (h : Mirrors l offset start m f) (hset : Tidy set)
    (horderly : t.Orderly) (hperm : t.entries.Perm s.entries) :
    ∃ f', f.writeDocument (f.setPath set) (write t) = (f', .ok ()) ∧
      Mirrors l offset start { m with sets := m.sets.insert set s } f' := by
  obtain ⟨f', hwrite, hputs⟩ := h.sound.writeDocument hset.stem_setStem (write t)
  rw [FolderStore.setPath_eq]
  exact ⟨f', hwrite, h.of_set (some t) hset hputs horderly hperm⟩

/-- The rankings of both are the same. -/
theorem ranked_inStep {first last : UInt64} (hset : Tidy set)
    (hlast : last.toNat < UInt64.size - 1) :
    InStep (Mirrors l offset start) (fun _ => True)
      (Backend.ranked set first last : Caching MemoryStore _).run
      (Backend.ranked set first last : Caching FolderStore _).run := by
  refine Caching.inStep_ofStep fun m f h => ?_
  obtain ⟨t, hmembers, horderly, hperm⟩ := h.members hset
  have hranking : t.ranking compareSigned =
      ((m.sets.get? set).getD .empty).ranking compareValues :=
    ScoredSet.ranking_eq_of_perm horderly hperm
  have hslice (names : List String) : ScoredSet.slice first last names =
      .ok ((names.drop first.toNat).take (last.toNat - first.toNat + 1)) :=
    if_pos (by omega)
  by_cases hswap : last < first
  · refine ⟨m, f, .ok (.ok []), ?_, ?_, h⟩
    · cases hget : m.sets.get? set <;> simp [MemoryStore.ranked, h.setsOpen, hget, hswap]
    · simp [FolderStore.ranked, h.sound.unblocked, hswap]
  · refine ⟨m, f, .ok (.ok (((((m.sets.get? set).getD .empty).ranking compareValues).drop
      first.toNat).take (last.toNat - first.toNat + 1))), ?_, ?_, h⟩
    · cases hget : m.sets.get? set with
      | none => simp [MemoryStore.ranked, h.setsOpen, hget, ScoredSet.ranking, Table.empty]
      | some s => simp [MemoryStore.ranked, h.setsOpen, hget, hswap, hslice]
    · simp [FolderStore.ranked, h.sound.unblocked, hswap, hmembers, hranking, hslice]

/-- A member with an ordinary score goes into both sets. -/
theorem insertScored_inStep (hset : Tidy set) (hscore : Ordinary score) :
    InStep (Mirrors l offset start) (fun _ => True)
      (Backend.insertScored set score member : Caching MemoryStore _).run
      (Backend.insertScored set score member : Caching FolderStore _).run := by
  refine Caching.inStep_ofSafeStep fun m f h => ?_
  obtain ⟨t, hmembers, horderly, hperm⟩ := h.members hset
  obtain ⟨f', hwrite, hmirrors⟩ :=
    h.write_set hset (horderly.insert hscore) (ScoredSet.perm_insert member score hperm)
  refine ⟨_, f', .ok (), ?_, ?_, hmirrors⟩
  · simp [MemoryStore.insertScored, h.setsOpen]
  · unfold FolderStore.insertScored
    rw [if_neg (by simp [h.sound.unblocked]), hmembers]
    exact hwrite

/-- The same members go from both sets, although the folder only writes a set that changes. -/
theorem removeScored_inStep (hset : Tidy set) :
    InStep (Mirrors l offset start) (fun _ => True)
      (Backend.removeScored set low high : Caching MemoryStore _).run
      (Backend.removeScored set low high : Caching FolderStore _).run := by
  refine Caching.inStep_ofSafeStep fun m f h => ?_
  obtain ⟨t, hmembers, horderly, hperm⟩ := h.members hset
  unfold FolderStore.removeScored
  rw [if_neg (by simp [h.sound.unblocked]), hmembers]
  dsimp only
  cases hget : m.sets.get? set with
  | none =>
    rw [hget] at hperm
    obtain ⟨es⟩ := t
    obtain rfl : es = [] := hperm.eq_nil
    refine ⟨m, f, .ok 0, ?_, rfl, h⟩
    simp [MemoryStore.removeScored, h.setsOpen, hget]
  | some s =>
    rw [hget] at hperm
    have hrest := ScoredSet.perm_outside low high hperm
    have hsize : t.size - (ScoredSet.outside t low high).size =
        s.size - (ScoredSet.outside s low high).size :=
      congrArg₂ Nat.sub hperm.length_eq hrest.length_eq
    have hmemory : m.removeScored set low high =
        ({ m with sets := m.sets.insert set (ScoredSet.outside s low high) },
          .ok (t.size - (ScoredSet.outside t low high).size)) := by
      simp [MemoryStore.removeScored, h.setsOpen, hget, hsize]
    split
    next hnone =>
      obtain ⟨s?, hshows, horderly, hperm⟩ := h.sets set hset
      rw [hget] at hperm
      refine ⟨_, f, _, hmemory, by rw [hnone], ?_⟩
      rw [ScoredSet.outside_eq_self (hsize ▸ hnone)]
      exact h.of_set s? hset (.refl h.sound hshows) horderly hperm
    next hsome =>
      obtain ⟨f', hwrite, hmirrors⟩ := h.write_set hset horderly.outside hrest
      exact ⟨_, f', _, hmemory, by rw [hwrite], hmirrors⟩

end Mirrors

end Guillotine
