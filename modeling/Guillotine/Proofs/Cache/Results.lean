import Guillotine.Cache.MemoryStore
import Guillotine.Proofs.Cache.Composed
import Guillotine.Proofs.Cache.ScoredSet

/-! Results kept in memory. What a memory holds under a key is a text that was put there, whatever
else has happened, so a condition on all texts and their keys is kept by looking for a result, and
by keeping one whose texts satisfy it. A result that was kept is found until its time is over.
Looking never faults, and keeping faults only if the time to live ends beyond the last point in
time. -/
namespace Guillotine

variable {p : String → String → Prop} {now later : Moment} {ttl : UInt64}
  {key other value text : String} {limit : Nat}

/-! ### Keys -/

theorem RequestDigest.eq_of_append {d d' : RequestDigest} {t : String}
    (h : t ++ d.hex = t ++ d'.hex) : d = d' := by
  have hlists := congrArg String.toList h
  simp only [String.toList_append, List.append_cancel_left_eq, String.toList_inj] at hlists
  obtain ⟨hex⟩ := d
  rw [RequestDigest.mk.injEq]
  exact hlists

theorem RequestDigest.resultKey_inj {d d' : RequestDigest} (h : d.resultKey = d'.resultKey) :
    d = d' :=
  eq_of_append h

theorem RequestDigest.entryKey_inj {d d' : RequestDigest} (h : d.entryKey = d'.entryKey) :
    d = d' :=
  eq_of_append h

theorem RequestDigest.entryKey_ne_resultKey (d d' : RequestDigest) :
    d.entryKey ≠ d'.resultKey := by
  intro h
  have hlists := congrArg String.toList h
  simp [resultKey, entryKey, String.toList_append] at hlists

/-! ### Texts in memory -/

/-- An entry that counts and satisfies a condition is found among those that satisfy it. -/
theorem Table.get?_filter {κ α : Type} [DecidableEq κ] {t : Table κ α} {p : κ → α → Bool} {k : κ}
    {a : α} (h : t.get? k = some a) (hp : p k a = true) : (t.filter p).get? k = some a := by
  obtain ⟨es⟩ := t
  unfold get? filter at *
  induction es with
  | nil => cases h
  | cons e es ih =>
    obtain ⟨j, b⟩ := e
    by_cases hjk : j = k <;> grind

namespace MemoryStore

variable {m : MemoryStore}

/-- Whether all texts of a memory and their keys satisfy a condition. -/
def AllTexts (p : String → String → Prop) (m : MemoryStore) : Prop :=
  ∀ e ∈ m.values.entries, p e.1 e.2.text

theorem allTexts_empty : empty.AllTexts p := fun _ h => absurd h List.not_mem_nil

/-- Looking drops texts at most. -/
theorem mem_get {e : String × Kept} (he : e ∈ (m.get now key).1.values.entries) :
    e ∈ m.values.entries := by
  unfold get at he
  split at he
  · exact he
  · split at he
    · exact he
    · split at he
      · exact he
      · exact (List.mem_filter.1 he).1

theorem get_allTexts (h : m.AllTexts p) : (m.get now key).1.AllTexts p :=
  fun e he => h e (mem_get he)

theorem get_valuesBlocked : (m.get now key).1.valuesBlocked = m.valuesBlocked := by
  unfold get
  split
  · rfl
  · split
    · rfl
    · split <;> rfl

/-- The text that is found under a key, if there is one. -/
def find? (m : MemoryStore) (now : Moment) (key : String) : Option String :=
  match (m.get now key).2 with
  | .ok found => found
  | .error _ => none

theorem find?_eq : m.find? now key =
    if m.valuesBlocked then none else ((m.values.get? key).filter (isLive now)).map Kept.text := by
  unfold find? get
  cases m.valuesBlocked with
  | true => rfl
  | false =>
    cases m.values.get? key with
    | none => rfl
    | some k => cases hlive : isLive now k <;> simp [hlive, Option.filter_some]

theorem exists_kept (h : m.find? now key = some text) : m.valuesBlocked = false ∧
    ∃ k, m.values.get? key = some k ∧ isLive now k = true ∧ k.text = text := by
  rw [find?_eq] at h
  split at h
  · cases h
  next hopen =>
    obtain ⟨k, hk, rfl⟩ := Option.map_eq_some_iff.1 h
    obtain ⟨hget, hlive⟩ := Option.filter_eq_some_iff.1 hk
    exact ⟨Bool.not_eq_true _ ▸ hopen, k, hget, hlive, rfl⟩

/-- A text that is found satisfies the condition that all texts satisfy. -/
theorem find?_text (h : m.AllTexts p) (hfind : m.find? now key = some text) : p key text := by
  obtain ⟨-, k, hget, -, rfl⟩ := exists_kept hfind
  exact h _ (Table.mem_of_get? hget)

/-- A text that is there after another one was put is an old one or the one that was put. -/
theorem mem_set {e : String × Kept} (he : e ∈ (m.set now key value ttl).1.values.entries) :
    e ∈ m.values.entries ∨
      e.1 = key ∧ e.2.text = value ∧ deadline now ttl = .ok e.2.deadline := by
  unfold set at he
  generalize deadline now ttl = o at he ⊢
  split at he
  · exact .inl he
  · cases o with
    | error f => exact .inl (List.mem_filter.1 he).1
    | ok d =>
      rcases List.mem_cons.1 he with rfl | he
      · exact .inr ⟨rfl, rfl, rfl⟩
      · exact .inl (List.mem_filter.1 (List.mem_filter.1 he).1).1

theorem set_allTexts (h : m.AllTexts p) (hvalue : p key value) :
    (m.set now key value ttl).1.AllTexts p := by
  intro e he
  rcases mem_set he with hold | ⟨rfl, rfl, -⟩
  · exact h e hold
  · exact hvalue

/-- Sets with scores and texts are apart. -/
theorem get_sets : (m.get now key).1.sets = m.sets ∧
    (m.get now key).1.setsBlocked = m.setsBlocked := by
  unfold get
  repeat' split
  all_goals exact ⟨rfl, rfl⟩

theorem insertScored_values (m : MemoryStore) (set : String) (score : Float) (member : String) :
    (m.insertScored set score member).1.values = m.values ∧
      (m.insertScored set score member).1.valuesBlocked = m.valuesBlocked := by
  unfold insertScored
  split <;> exact ⟨rfl, rfl⟩

theorem removeScored_values (m : MemoryStore) (set : String) (low high : Float) :
    (m.removeScored set low high).1.values = m.values ∧
      (m.removeScored set low high).1.valuesBlocked = m.valuesBlocked := by
  unfold removeScored
  split
  · exact ⟨rfl, rfl⟩
  · split <;> exact ⟨rfl, rfl⟩

theorem ranked_values (m : MemoryStore) (set : String) (start stop : UInt64) :
    (m.ranked set start stop).1.values = m.values ∧
      (m.ranked set start stop).1.valuesBlocked = m.valuesBlocked := by
  unfold ranked
  split
  · exact ⟨rfl, rfl⟩
  · split
    · exact ⟨rfl, rfl⟩
    · split
      · exact ⟨rfl, rfl⟩
      · split <;> exact ⟨rfl, rfl⟩

/-- Whether a memory holds a text under a key, up to some uptime. -/
structure Holds (key text : String) (limit : Nat) (m : MemoryStore) : Prop where
  unblocked : m.valuesBlocked = false
  held : m.values.get? key = some ⟨text, limit⟩

theorem Holds.get (h : m.Holds key text limit) (hlimit : now.uptime < limit) :
    m.get now key = (m, .ok (some text)) := by
  simp [MemoryStore.get, h.unblocked, h.held, isLive, hlimit]

/-- A text that is found is held. -/
theorem exists_holds_of_find? (h : m.find? now key = some text) :
    ∃ limit, m.Holds key text limit ∧ now.uptime < limit := by
  obtain ⟨hopen, k, hget, hlive, rfl⟩ := exists_kept h
  exact ⟨k.deadline, ⟨hopen, hget⟩, of_decide_eq_true hlive⟩

/-- A text that is held stays where it is while another one is looked for. -/
theorem Holds.get_other (h : m.Holds key text limit) (hlimit : now.uptime < limit)
    (other : String) :
    (m.get now other).1.Holds key text limit := by
  by_cases hkey : key = other
  · subst hkey
    rw [h.get hlimit]
    exact h
  · refine ⟨get_valuesBlocked.trans h.unblocked, ?_⟩
    unfold MemoryStore.get
    split
    · exact h.held
    · split
      · exact h.held
      · split
        · exact h.held
        · show (m.values.erase other).get? key = _
          rw [Table.get?_erase, if_neg hkey, h.held]

theorem holds_set (h : m.valuesBlocked = false) (hlimit : deadline now ttl = .ok limit) :
    (m.set now key value ttl).1.Holds key value limit := by
  simp only [set, h, hlimit]
  exact ⟨rfl, by simp⟩

/-- A text stays where it is while others are put elsewhere. -/
theorem Holds.set (h : m.Holds key text limit) (hnow : now.uptime < limit) (hother : key ≠ other)
    {limit' : Nat} (hlimit : deadline now ttl = .ok limit') :
    (m.set now other value ttl).1.Holds key text limit := by
  have hlive := Table.get?_filter (p := fun _ k => isLive now k) h.held (by simpa [isLive])
  simp only [MemoryStore.set, h.unblocked, hlimit, Bool.false_eq_true, if_false]
  exact ⟨rfl, by rw [Table.get?_insert, if_neg hother, hlive]⟩

theorem Holds.of_eq {m' : MemoryStore} (h : m.Holds key text limit)
    (hvalues : m'.values = m.values) (hblocked : m'.valuesBlocked = m.valuesBlocked) :
    m'.Holds key text limit :=
  ⟨hblocked.trans h.unblocked, hvalues ▸ h.held⟩

theorem set_faults {e : Fault} (h : (m.set now key value ttl).2 = .error e) :
    deadline now ttl = .error e := by
  unfold set at h
  split at h
  · cases h
  · split at h
    · cases h
    · next f hf =>
      cases h
      exact hf

/-- A fault blocks a memory. -/
theorem set_overflow {e : Fault} (key value : String) (h : m.valuesBlocked = false)
    (hdeadline : deadline now ttl = .error e) :
    (m.set now key value ttl).1.valuesBlocked = true ∧
      (m.set now key value ttl).2 = .error e := by
  simp [set, h, hdeadline]

theorem eq_deadlineOverflow {e : Fault} (h : deadline now ttl = .error e) :
    e = .deadlineOverflow := by
  unfold deadline at h
  dsimp only at h
  split at h
  · cases h
  · cases h
    rfl

end MemoryStore

/-! ### Results -/

namespace Results

open MemoryStore Run

variable {v : Verbosity} {m : MemoryStore} {d : RequestDigest} {r : Report}

/-- The result that a memory holds under a digest: what is read from the text that is found. -/
def held? (m : MemoryStore) (now : Moment) (d : RequestDigest) : Option Report :=
  (m.find? now d.resultKey).bind read?

/-- What is read in memory from the text that is found under a key. -/
theorem fetch_outcome {α : Type} [OfJson α] (failed : CacheError → String) (undecodable : String) :
    (fetch now key failed undecodable v m).outcome =
      ((m.get now key).1, .ok ((m.find? now key).bind fun text => (read? text : Option α))) := by
  have hget : (attempt (Backend.get now key) v m).outcome =
      ((m.get now key).1, .ok (m.get now key).2) := rfl
  unfold fetch
  rw [outcome_bind_ok hget, find?]
  generalize (m.get now key).1 = t
  rcases (m.get now key).2 with e | none | text
  · exact outcome_note_bind
  · rfl
  · show _ = (t, Except.ok (read? text))
    dsimp only
    cases (read? text : Option α) with
    | none => exact outcome_note_bind
    | some r => rfl

theorem lookup_outcome (v : Verbosity) (m : MemoryStore) (now : Moment) (d : RequestDigest) :
    (lookup now d v m).outcome = ((m.get now d.resultKey).1, .ok (held? m now d)) := by
  rw [lookup_eq_fetch, fetch_outcome]
  rfl

/-- A result and its entry are kept among texts that satisfy a condition if theirs do. -/
theorem preserves_store (hresult : p d.resultKey (Guillotine.write r))
    (hentry : p d.entryKey (Guillotine.write (⟨d.hex, now.wall, r⟩ : Entry))) :
    Preserves (AllTexts p) (store now ttl d r) := by
  refine composed_store (composable_preserves _).congruence ?_ ?_ ?_ ?_
  · exact fun _ _ h => set_allTexts h hentry
  · exact fun _ m h e he => h e ((removeScored_values m _ _ _).1 ▸ he)
  · exact fun _ m h e he => h e ((insertScored_values m _ _ _).1 ▸ he)
  · exact fun _ _ h => set_allTexts h hresult

/-- Keeping a result faults only where its time ends when there is no time anymore. -/
theorem faultsOnly_store : FaultsOnly (fun e => deadline now ttl = .error e)
    (store now ttl d r : Run MemoryStore Unit) := by
  refine composed_store (composable_faultsOnly _).congruence ?_ ?_ ?_ ?_
  · exact fun _ _ _ h => set_faults h
  · exact fun _ _ _ h => nomatch h
  · exact fun _ _ _ h => nomatch h
  · exact fun _ _ _ h => set_faults h

/-- Where keeping a result faults, the memory is blocked. -/
theorem store_overflow {e : Fault} (h : m.valuesBlocked = false)
    (hdeadline : deadline now ttl = .error e) :
    ∃ t, t.valuesBlocked = true ∧ (store now ttl d r v m).outcome = (t, .error e) := by
  obtain ⟨hblocked, hfault⟩ := set_overflow d.resultKey (Guillotine.write r) h hdeadline
  have hset : ((Backend.set now d.resultKey (Guillotine.write r) ttl :
      Caching MemoryStore Unit).run v m).outcome =
        ((m.set now d.resultKey (Guillotine.write r) ttl).1, .error e) :=
    Prod.ext rfl hfault
  have hwrite : (attempt (write now ttl d r) v m).outcome =
      ((m.set now d.resultKey (Guillotine.write r) ttl).1, .error e) := outcome_run_bind_fault hset
  exact ⟨_, hblocked, outcome_bind_error hwrite⟩

/-- Nothing is found in a blocked memory. -/
theorem held?_blocked (h : m.valuesBlocked = true) : held? m now d = none := by
  simp [held?, find?, MemoryStore.get, h]

/-- What is to be kept in a blocked memory is dropped. -/
theorem store_blocked (h : m.valuesBlocked = true) :
    (store now ttl d r v m).outcome = (m, .ok ()) := by
  have hset : ((Backend.set now d.resultKey (Guillotine.write r) ttl :
      Caching MemoryStore Unit).run v m).outcome =
        (m, .ok (.error (.unavailable .memoryBlocked))) := by
    show ((m.set _ _ _ _).1, (m.set _ _ _ _).2) = _
    simp [MemoryStore.set, h]
  have hwrite : (attempt (write now ttl d r) v m).outcome =
      (m, .ok (.error (.unavailable .memoryBlocked))) := outcome_run_bind_thrown hset
  unfold store
  rw [outcome_bind_ok hwrite]
  exact outcome_note

/-- A result that is kept can be found from then on, until its time is over. -/
theorem holds_store (h : m.valuesBlocked = false) (hlimit : deadline now ttl = .ok limit)
    (hnow : now.uptime < limit) :
    (store now ttl d r v m).state.Holds d.resultKey (Guillotine.write r) limit := by
  apply Preserves.after
  · intro outcome
    cases outcome with
    | ok _ => exact (composable_preserves _).note _ _
    | error e => exact (composable_preserves _).note _ _
  · apply Preserves.run_after _ (holds_set h hlimit)
    intro _
    refine composed_writeEntry (composable_preserves _).congruence ?_ ?_ ?_
    · exact fun _ _ h =>
        h.set hnow (RequestDigest.entryKey_ne_resultKey d d).symm hlimit
    · exact fun _ m h => h.of_eq (removeScored_values m _ _ _).1 (removeScored_values m _ _ _).2
    · exact fun _ m h => h.of_eq (insertScored_values m _ _ _).1 (insertScored_values m _ _ _).2

/-- What is held is what is read from a text whose time is not over. -/
theorem held?_of_holds (h : m.Holds d.resultKey text limit) (hlater : later.uptime < limit) :
    held? m later d = read? text := by
  rw [held?, find?, h.get hlater]
  rfl

end Results

end Guillotine
