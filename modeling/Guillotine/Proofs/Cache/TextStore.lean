import Guillotine.Cache.Monitored
import Guillotine.Proofs.Cache.Results
import Guillotine.Proofs.Request.Digest

/-! Backends that invent nothing. Whatever text such a backend returns under a key of a service was
put there under that key, and a call that only looks, or that concerns the index, puts no text under
such a key. Any call may fail, as long as what fails adds nothing. Memory is such a backend, and
stays one when some of its calls are refused. -/
namespace Guillotine

/-- Whether the time to live of a text that is put at a moment ends while there is time, so that
putting it is no fault. -/
def Backend.Lasts (σ : Type) [Backend σ] (now : Moment) (ttl : UInt64) : Prop :=
  ∀ (key text : String) (v : Verbosity) (m : σ) (f : Fault),
    ((Backend.set now key text ttl : Caching σ Unit).run v m).value ≠ .error f

/-- The keys under which a service puts texts. -/
inductive IsTextKey : String → Prop
  | result {d : RequestDigest} (hd : d.Proper) : IsTextKey d.resultKey
  | entry {d : RequestDigest} (hd : d.Proper) : IsTextKey d.entryKey

/-- A backend whose texts are those that were put, as far as the keys of a service are concerned.
Other keys may share their places with these, as those do in a folder whose names become the
same. -/
class TextStore (σ : Type) [Backend σ] where
  /-- Whether a text is kept under a key. -/
  Has : σ → String → String → Prop
  get_has {m : σ} {v : Verbosity} {now : Moment} {key k t : String} :
    IsTextKey key → IsTextKey k →
    Has ((Backend.get now key : Caching σ _).run v m).state k t → Has m k t
  get_found {m : σ} {v : Verbosity} {now : Moment} {key t : String} : IsTextKey key →
    ((Backend.get now key : Caching σ _).run v m).value = .ok (.ok (some t)) → Has m key t
  get_returns {m : σ} {v : Verbosity} {now : Moment} {key : String} {f : Fault} : IsTextKey key →
    ((Backend.get now key : Caching σ _).run v m).value ≠ .error f
  set_has {m : σ} {v : Verbosity} {now : Moment} {key text : String} {ttl : UInt64}
      {k t : String} : IsTextKey key → IsTextKey k →
    Has ((Backend.set now key text ttl : Caching σ _).run v m).state k t →
    Has m k t ∨ k = key ∧ t = text
  set_fault {m : σ} {v : Verbosity} {now : Moment} {key text : String} {ttl : UInt64} {f : Fault}
      {k t : String} : IsTextKey key → IsTextKey k →
    ((Backend.set now key text ttl : Caching σ _).run v m).value = .error f →
    Has ((Backend.set now key text ttl : Caching σ _).run v m).state k t → Has m k t
  set_done {m : σ} {v : Verbosity} {now : Moment} {key text : String} {ttl : UInt64} :
    IsTextKey key → ((Backend.set now key text ttl : Caching σ _).run v m).value = .ok (.ok ()) →
    Backend.Lasts σ now ttl
  insertScored_has {m : σ} {v : Verbosity} {member : String} {score : Float} {k t : String} :
    IsTextKey k →
    Has ((Backend.insertScored Results.indexKey score member : Caching σ _).run v m).state k t →
    Has m k t
  insertScored_returns {m : σ} {v : Verbosity} {member : String} {score : Float} {f : Fault} :
    ((Backend.insertScored Results.indexKey score member : Caching σ _).run v m).value ≠ .error f
  removeScored_has {m : σ} {v : Verbosity} {low high : Float} {k t : String} : IsTextKey k →
    Has ((Backend.removeScored Results.indexKey low high : Caching σ _).run v m).state k t →
    Has m k t
  removeScored_returns {m : σ} {v : Verbosity} {low high : Float} {f : Fault} :
    ((Backend.removeScored Results.indexKey low high : Caching σ _).run v m).value ≠ .error f
  ranked_has {m : σ} {v : Verbosity} {start stop : UInt64} {k t : String} : IsTextKey k →
    Has ((Backend.ranked Results.indexKey start stop : Caching σ _).run v m).state k t → Has m k t

/-! ### Memory -/

namespace MemoryStore

variable {m : MemoryStore} {now : Moment} {ttl : UInt64} {key text k t : String}

/-- Whether a text is kept under a key, be its time over or not. -/
def Has (m : MemoryStore) (key text : String) : Prop :=
  ∃ e ∈ m.values.entries, e.1 = key ∧ e.2.text = text

theorem allTexts_has : m.AllTexts m.Has := fun e he => ⟨e, he, rfl, rfl⟩

theorem AllTexts.of_has {p : String → String → Prop} (h : m.AllTexts p) (hhas : m.Has k t) :
    p k t := by
  obtain ⟨e, he, rfl, rfl⟩ := hhas
  exact h e he

theorem not_has_empty : ¬ empty.Has k t := fun ⟨_, he, _⟩ => List.not_mem_nil he

theorem has_of_set (h : (m.set now key text ttl).1.Has k t) : m.Has k t ∨ k = key ∧ t = text := by
  obtain ⟨e, he, rfl, rfl⟩ := h
  rcases mem_set he with hold | ⟨hkey, htext, -⟩
  · exact .inl ⟨e, hold, rfl, rfl⟩
  · exact .inr ⟨hkey, htext⟩

/-- What cannot be kept is not among the texts. -/
theorem has_of_set_fault {f : Fault} (hfault : (m.set now key text ttl).2 = .error f)
    (h : (m.set now key text ttl).1.Has k t) : m.Has k t := by
  obtain ⟨e, he, rfl, rfl⟩ := h
  rcases mem_set he with hold | ⟨-, -, hdeadline⟩
  · exact ⟨e, hold, rfl, rfl⟩
  · cases (set_faults hfault).symm.trans hdeadline

theorem value_set (v : Verbosity) (m : MemoryStore) :
    ((Backend.set now key text ttl : Caching MemoryStore Unit).run v m).value =
      (m.set now key text ttl).2 :=
  rfl

theorem lasts_iff : Backend.Lasts MemoryStore now ttl ↔ ∃ limit, deadline now ttl = .ok limit := by
  constructor
  · intro h
    cases hdeadline : deadline now ttl with
    | ok limit => exact ⟨limit, rfl⟩
    | error f =>
      have hfault := (set_overflow (m := .empty) "" "" rfl hdeadline).2
      exact absurd ((value_set none .empty).trans hfault) (h "" "" none .empty f)
  · rintro ⟨limit, hlimit⟩ key text v m f hf
    rw [value_set] at hf
    cases hlimit.symm.trans (set_faults hf)

theorem lasts_of_set (h : (m.set now key text ttl).2 = .ok (.ok ())) :
    Backend.Lasts MemoryStore now ttl := by
  rw [lasts_iff]
  unfold set at h
  split at h
  · cases h
  · split at h
    · exact ⟨_, ‹_›⟩
    · cases h

instance : TextStore MemoryStore where
  Has := Has
  get_has _ _ h := (get_allTexts allTexts_has).of_has h
  get_found {m _ now key t} _ h := by
    have hfound : (m.get now key).2 = .ok (some t) := Except.ok.inj h
    have hfind : m.find? now key = some t := by rw [find?, hfound]
    exact find?_text allTexts_has hfind
  get_returns _ := nofun
  set_has _ _ := has_of_set
  set_fault _ _ := has_of_set_fault
  set_done _ := lasts_of_set
  insertScored_has _ h := by
    obtain ⟨e, he, hkey⟩ := h
    exact ⟨e, (insertScored_values _ _ _ _).1 ▸ he, hkey⟩
  insertScored_returns := nofun
  removeScored_has _ h := by
    obtain ⟨e, he, hkey⟩ := h
    exact ⟨e, (removeScored_values _ _ _ _).1 ▸ he, hkey⟩
  removeScored_returns := nofun
  ranked_has _ h := by
    obtain ⟨e, he, hkey⟩ := h
    exact ⟨e, (ranked_values _ _ _ _).1 ▸ he, hkey⟩

end MemoryStore

/-! ### Refused calls -/

namespace Monitored

variable {σ α : Type} {m : Monitored σ} {v : Verbosity} {c : BackendCall} {x : Caching σ α}
  {now : Moment} {ttl : UInt64}

theorem call_outcome (c : BackendCall) (x : Caching σ α) (v : Verbosity) (m : Monitored σ) :
    ((call c x).run v m).outcome =
      if m.refuses m.calls c then
        ({ m with calls := c :: m.calls }, .ok (.error (.unavailable .refused)))
      else
        ({ m with behind := (x.run v m.behind).state, calls := c :: m.calls },
          (x.run v m.behind).value) := by
  have hcall : ((call c x).run v m).outcome =
      ((if m.refuses m.calls c then throw (.unavailable .refused)
        else ExceptT.mk (onBehind x.run) : Caching (Monitored σ) α).run v
          { m with calls := c :: m.calls }).outcome := by
    apply (outcome_run_bind_ok (a := m) (t := m) rfl).trans
    exact outcome_run_bind_ok rfl
  rw [hcall]
  split <;> rfl

/-- A call is refused and changes nothing behind, or ends as it ends behind. -/
theorem call_cases (c : BackendCall) (x : Caching σ α) (v : Verbosity) (m : Monitored σ) :
    (((call c x).run v m).state.behind = m.behind ∧
        ((call c x).run v m).value = .ok (.error (.unavailable .refused))) ∨
      ((call c x).run v m).state.behind = (x.run v m.behind).state ∧
        ((call c x).run v m).value = (x.run v m.behind).value := by
  have hcall := call_outcome c x v m
  have hstate := congrArg (fun o => o.1.behind) hcall
  have hvalue := congrArg Prod.snd hcall
  change ((call c x).run v m).state.behind = _ at hstate
  change ((call c x).run v m).value = _ at hvalue
  rw [hstate, hvalue]
  split
  · exact .inl ⟨rfl, rfl⟩
  · exact .inr ⟨rfl, rfl⟩

theorem call_state {P : σ → Prop} (hm : P m.behind) (hx : P (x.run v m.behind).state) :
    P ((call c x).run v m).state.behind := by
  rcases call_cases c x v m with ⟨hstate, -⟩ | ⟨hstate, -⟩
  · exact hstate ▸ hm
  · exact hstate ▸ hx

/-- What a call ends in, apart from being refused, it ends in behind. -/
theorem value_of_call {r : Checked (Except CacheError α)} (h : ((call c x).run v m).value = r)
    (hr : r ≠ .ok (.error (.unavailable .refused))) :
    (x.run v m.behind).value = r ∧
      ((call c x).run v m).state.behind = (x.run v m.behind).state := by
  rcases call_cases c x v m with ⟨-, hvalue⟩ | ⟨hstate, hvalue⟩
  · exact absurd (h.symm.trans hvalue) hr
  · exact ⟨hvalue.symm.trans h, hstate⟩

variable [Backend σ]

theorem lasts (h : Backend.Lasts σ now ttl) : Backend.Lasts (Monitored σ) now ttl :=
  fun key text v m f hf => h key text v m.behind f (value_of_call hf nofun).1

instance [TextStore σ] : TextStore (Monitored σ) where
  Has m := TextStore.Has m.behind
  get_has {_ _ _ _ k t} hkey hk h := by
    revert h
    exact call_state (P := fun n => TextStore.Has n k t → _) id (TextStore.get_has hkey hk)
  get_found hkey h := TextStore.get_found hkey (value_of_call h nofun).1
  get_returns hkey h := TextStore.get_returns hkey (value_of_call h nofun).1
  set_has {_ _ _ key text _ k t} hkey hk h := by
    revert h
    exact call_state (P := fun n => TextStore.Has n k t → _) .inl (TextStore.set_has hkey hk)
  set_fault hkey hk hf h := by
    obtain ⟨hvalue, hstate⟩ := value_of_call hf nofun
    exact TextStore.set_fault hkey hk hvalue (hstate ▸ h)
  set_done hkey h := lasts (TextStore.set_done hkey (value_of_call h nofun).1)
  insertScored_has {_ _ _ _ k t} hk h := by
    revert h
    exact call_state (P := fun n => TextStore.Has n k t → _) id (TextStore.insertScored_has hk)
  insertScored_returns h := TextStore.insertScored_returns (value_of_call h nofun).1
  removeScored_has {_ _ _ _ k t} hk h := by
    revert h
    exact call_state (P := fun n => TextStore.Has n k t → _) id (TextStore.removeScored_has hk)
  removeScored_returns h := TextStore.removeScored_returns (value_of_call h nofun).1
  ranked_has {_ _ _ _ k t} hk h := by
    revert h
    exact call_state (P := fun n => TextStore.Has n k t → _) id (TextStore.ranked_has hk)

end Monitored

/-! ### Results -/

namespace TextStore

open Run Results

variable {σ : Type} [Backend σ] [TextStore σ] {p : String → String → Prop} {now : Moment}
  {ttl : UInt64} {key : String} {d : RequestDigest} {r : Report} {v : Verbosity} {m : σ}

/-- Whether all texts of a backend that are kept under keys of a service satisfy a condition,
together with their keys. -/
def AllTexts (p : String → String → Prop) (m : σ) : Prop :=
  ∀ key text, IsTextKey key → Has m key text → p key text

theorem AllTexts.mono {q : String → String → Prop} (h : AllTexts p m)
    (hpq : ∀ key text, p key text → q key text) : AllTexts q m :=
  fun key text hkey hhas => hpq key text (h key text hkey hhas)

/-- A text that is found satisfies the condition that all texts satisfy. -/
theorem finds (now : Moment) (hkey : IsTextKey key) :
    Finds (Same (AllTexts (σ := σ) p)) now key (p key) := by
  apply inStep_same_iff.2
  intro v m h
  refine ⟨fun k t hk hhas => h k t hk (get_has hkey hk hhas), ?_⟩
  rintro outcome hvalue text rfl
  exact h key text hkey (get_found hkey hvalue)

theorem ranked_preserves {start stop : UInt64} :
    Preserves (AllTexts p) (Backend.ranked indexKey start stop : Caching σ _).run :=
  fun _ _ h k t hk hhas => h k t hk (ranked_has hk hhas)

section Proper

variable (hd : d.Proper)
include hd

theorem lookup_returns {f : Fault} : (lookup now d v m).value ≠ .error f := by
  have hget : FaultsOnly (fun _ => False) (attempt (Backend.get now d.resultKey) : Run σ _) :=
    fun _ _ _ h => absurd h (get_returns (.result hd))
  rw [lookup_eq_fetch]
  exact composed_fetch (composable_faultsOnly _) hget _ _ v m f

/-- A result and its entry are kept among texts that satisfy a condition if theirs do. -/
theorem preserves_store (hresult : p d.resultKey (write r))
    (hentry : p d.entryKey (write (⟨d.hex, now.wall, r⟩ : Entry))) :
    Preserves (AllTexts p) (store now ttl d r : Run σ Unit) := by
  have hset : ∀ key text, IsTextKey key → p key text →
      Preserves (AllTexts p) (Backend.set now key text ttl : Caching σ Unit).run := by
    intro key text hkey hp v m h k t hk hhas
    rcases set_has hkey hk hhas with hold | ⟨rfl, rfl⟩
    · exact h k t hk hold
    · exact hp
  refine composed_store (composable_preserves _).congruence ?_ ?_ ?_ ?_
  · exact hset _ _ (.entry hd) hentry
  · exact fun _ _ h k t hk hhas => h k t hk (removeScored_has hk hhas)
  · exact fun _ _ h k t hk hhas => h k t hk (insertScored_has hk hhas)
  · exact hset _ _ (.result hd) hresult

/-- A fault in keeping a result comes from its time to live, and nothing is kept then. -/
theorem store_fault {f : Fault} (h : (store now ttl d r v m).value = .error f) :
    ¬ Backend.Lasts σ now ttl ∧
      ∀ k t, IsTextKey k → Has (store now ttl d r v m).state k t → Has m k t := by
  have hfaults :
      FaultsOnly (fun _ => ¬ Backend.Lasts σ now ttl) (store now ttl d r : Run σ Unit) := by
    refine composed_store (composable_faultsOnly _).congruence ?_ ?_ ?_ ?_
    · exact fun v m f hf hlasts => hlasts _ _ v m f hf
    · exact fun _ _ _ hf => absurd hf removeScored_returns
    · exact fun _ _ _ hf => absurd hf insertScored_returns
    · exact fun v m f hf hlasts => hlasts _ _ v m f hf
  have hlasts := hfaults v m f h
  refine ⟨hlasts, ?_⟩
  -- The first call that puts a text decides whether there is a fault at all.
  cases hset : ((Backend.set now d.resultKey (write r) ttl : Caching σ Unit).run v m).value with
  | error f' =>
    have hwrite : (attempt (Results.write now ttl d r) v m).outcome =
        (((Backend.set now d.resultKey (write r) ttl : Caching σ Unit).run v m).state, .error f') :=
      outcome_run_bind_fault (Prod.ext rfl hset)
    have hstate : (store now ttl d r v m).state = _ := congrArg Prod.fst (outcome_bind_error hwrite)
    rw [hstate]
    exact fun k t hk => set_fault (.result hd) hk hset
  | ok outcome =>
    cases outcome with
    | error e =>
      have hwrite : (attempt (Results.write now ttl d r) v m).outcome =
          (((Backend.set now d.resultKey (write r) ttl : Caching σ Unit).run v m).state,
            .ok (.error e)) := outcome_run_bind_thrown (Prod.ext rfl hset)
      have hstore : (store now ttl d r v m).outcome = _ :=
        (outcome_bind_ok hwrite).trans outcome_note
      cases h.symm.trans (congrArg Prod.snd hstore)
    | ok _ => exact absurd (set_done (.result hd) hset) hlasts

end Proper

end TextStore

end Guillotine
