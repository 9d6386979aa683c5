import Guillotine.Proofs.Cache.FolderTexts
import Guillotine.Proofs.Documents.Entry
import Guillotine.Proofs.Service.Backends
import Guillotine.Proofs.Service.History
import Guillotine.Proofs.Service.Visits

/-! A service only ever repeats itself. Each text in its backend is that of a report that was a
fresh answer before, or of an entry about one, under the digest of that report. A visit adds such
texts only, whichever calls to the backend fail. So a report that is found was an answer before, and
a request that is not turned down is answered, with what is found or else with what is packed
anew. -/
namespace Guillotine

namespace Service

open Run

variable {s : Service} {v : Verbosity} {past : History} {x : Visit} {reply : Reply} {c : Call}
  {d : RequestDigest} {r report : Report} {a : Answer}

/-! ### Fresh answers -/

/-- A report was the answer to a request that was packed anew, and has a digest. -/
def Fresh (past : History) (digest : String) (r : Report) : Prop :=
  r.cached = false ∧ r.digest = digest ∧
    ∃ c, (Visit.optimize c, Reply.answer (.ok (.ok r))) ∈ past

theorem Fresh.append {digest : String} (h : Fresh past digest r) (more : History) :
    Fresh (past ++ more) digest r := by
  obtain ⟨hcached, hdigest, c, hc⟩ := h
  exact ⟨hcached, hdigest, c, List.mem_append_left _ hc⟩

/-- A request passes its check, and its demand can be planned. -/
def Accepts (s : Service) (v : Verbosity) (c : Call) : Prop :=
  c.request.ordered.check = .ok () ∧
    ∃ plan, ((s.plan c.request.ordered.toDemand).run.record v).2 = .ok (.ok plan)

/-- A demand that can be planned is not turned down. -/
theorem Accepts.reply_ne {e : Rejection} (h : s.Accepts v c) : c.reply s v ≠ .ok (.error e) := by
  obtain ⟨-, plan, hplan⟩ := h
  intro hreply
  rw [Call.reply, reply_record, hplan] at hreply
  dsimp only at hreply
  generalize ((s.present (address c.request) _ _ plan).record v).2 = presented at hreply
  cases presented <;> cases hreply

/-! ### Texts on record -/

/-- The texts that stand for fresh answers, under their keys. -/
inductive OnRecord (past : History) : String → String → Prop
  | result {d : RequestDigest} {r : Report} (h : Fresh past d.hex r) :
    OnRecord past d.resultKey (write r)
  | entry {d : RequestDigest} {r : Report} (t : Timestamp) (h : Fresh past d.hex r) :
    OnRecord past d.entryKey (write (⟨d.hex, t, r⟩ : Entry))

theorem OnRecord.append {key text : String} (h : OnRecord past key text) (more : History) :
    OnRecord (past ++ more) key text := by
  cases h with
  | result h => exact .result (h.append more)
  | entry t h => exact .entry t (h.append more)

theorem OnRecord.fresh_of_result {text : String} (h : OnRecord past d.resultKey text)
    (hread : read? text = some r) : Fresh past d.hex r := by
  generalize hkey : d.resultKey = key at h
  cases h with
  | @result d' r' h =>
    obtain rfl := RequestDigest.resultKey_inj hkey
    exact eq_of_read?_write hread ▸ h
  | entry t h => exact absurd hkey.symm (RequestDigest.entryKey_ne_resultKey _ _)

theorem OnRecord.fresh_of_entry {text : String} {e : Entry} (h : OnRecord past d.entryKey text)
    (hread : read? text = some e) : Fresh past e.digest e.report := by
  generalize hkey : d.entryKey = key at h
  cases h with
  | result h => exact absurd hkey (RequestDigest.entryKey_ne_resultKey _ _)
  | entry t h =>
    obtain ⟨hdigest, hreport⟩ := Entry.eq_of_read?_write hread
    rw [hdigest, hreport]
    exact h

/-! ### Looking for reports -/

section Visits

/-- What a reply owes to the history before it. A report that was kept was a fresh answer, for maybe
another project, and so was the report of each entry. A request that can be planned is answered, be
it for a fault in reporting the plan or in keeping a report for too long. -/
def Recalls (σ : Type) [Backend σ] (s : Service) (v : Verbosity) (past : History) :
    Visit → Reply → Prop
  | .optimize c, .answer a =>
    (∀ r, a = .ok (.ok r) → r.cached = true → ∃ fresh, Fresh past r.digest fresh ∧
      r = { fresh with
        cached := true, summary := { fresh.summary with project := c.request.project } }) ∧
    (s.Accepts v c → (∃ r, a = .ok (.ok r)) ∨
      ∃ f, a = .error f ∧ (c.reply s v = .error f ∨ ¬ Backend.Lasts σ c.ended s.ttl))
  | .cached _ _, .entry found => ∀ e, found = .ok (some e) → Fresh past e.digest e.report
  | .recent _ _ _, .entries found => ∀ es, found = .ok es → ∀ e ∈ es, Fresh past e.digest e.report
  | _, _ => False

variable {σ : Type} [Backend σ] [TextStore σ] {m : σ}

/-- All texts of a backend stand for fresh answers. -/
def Records (past : History) : σ → Prop := TextStore.AllTexts (OnRecord past)

theorem Records.append (h : Records past m) (more : History) : Records (past ++ more) m :=
  h.mono fun _ _ hp => hp.append more

/-- Looking for a report finds fresh ones only, and does not fault. -/
theorem lookup_records (now : Moment) (hd : d.Proper) (h : Records past m) :
    ∃ t found, (Results.lookup now d v m).outcome = (t, .ok found) ∧ Records past t ∧
      ∀ r, found = some r → Fresh past d.hex r := by
  have hstep := Results.fetch_inStep (α := Report)
    (TextStore.finds (σ := σ) (p := OnRecord past) now (.result hd))
    (fun e => String.join
      ["[CACHE] read of ", d.resultKey, " failed, treating as miss: ", e.message])
    (String.join ["[CACHE] undecodable entry under ", d.resultKey,
      ", treating as miss: not the expected document"])
  rw [← Results.lookup_eq_fetch] at hstep
  obtain ⟨hstate, hfound⟩ := inStep_same_iff.1 hstep v m h
  cases hvalue : (Results.lookup now d v m).value with
  | error f => exact absurd hvalue (TextStore.lookup_returns hd)
  | ok found =>
    refine ⟨_, found, Prod.ext rfl hvalue, hstate, fun r hr => ?_⟩
    obtain ⟨text, htext, hread⟩ := hfound found hvalue r hr
    exact htext.fresh_of_result hread

/-! ### One visit -/

theorem serve_recalls (h : Records past m) :
    Records (past ++ [(.optimize c, .answer (s.serve v c m).2)]) (s.serve v c m).1 ∧
      Recalls σ s v past (.optimize c) (.answer (s.serve v c m).2) := by
  cases hcheck : c.request.ordered.check with
  | error e =>
    have hserve : s.serve v c m = (m, .ok (.error e)) := optimize_rejected hcheck
    rw [hserve]
    refine ⟨h.append _, fun _ hr => (by cases hr), fun hc => ?_⟩
    cases hc.1.symm.trans hcheck
  | ok u =>
    obtain ⟨t, found, hlookup, ht, hfound⟩ :=
      lookup_records (v := v) c.begun (proper_address c.request) h
    cases found with
    | some report =>
      have hserve : s.serve v c m = _ := optimize_kept hcheck hlookup
      have hfresh := hfound report rfl
      rw [hserve]
      refine ⟨ht.append _, fun r hr _ => ?_, fun _ => .inl ⟨_, rfl⟩⟩
      obtain rfl := Except.ok.inj (Except.ok.inj hr)
      refine ⟨report, hfresh, ?_⟩
      rw [answerKept, ← hfresh.2.1]
    | none =>
      have hserve := serve_unfound (s := s) hcheck hlookup
      rcases hreply : c.reply s v with f | e | r
      · rw [hserve, hreply]
        exact ⟨ht.append _, fun _ hr => (by cases hr), fun _ => .inr ⟨f, rfl, .inl hreply⟩⟩
      · rw [hserve, hreply]
        exact ⟨ht.append _, fun _ hr => (by cases hr), fun hc => absurd hreply hc.reply_ne⟩
      · obtain ⟨hcached, hdigest, -⟩ := reply_fresh hreply
        rw [hserve, hreply]
        dsimp only
        cases hstore : (Results.store c.ended s.ttl (address c.request) r v t).value with
        | error f =>
          have hkept : (Results.store c.ended s.ttl (address c.request) r v t).outcome =
              (_, .error f) := Prod.ext rfl hstore
          obtain ⟨hlasts, hsame⟩ := TextStore.store_fault (proper_address c.request) hstore
          rw [hkept]
          refine ⟨fun k text hk hhas => (ht k text hk (hsame k text hk hhas)).append _,
            fun _ hr => (by cases hr), fun _ => ?_⟩
          exact .inr ⟨f, rfl, .inr hlasts⟩
        | ok _ =>
          have hkept : (Results.store c.ended s.ttl (address c.request) r v t).outcome =
              (_, .ok ()) := Prod.ext rfl hstore
          have hfresh : Fresh (past ++ [(.optimize c, .answer (.ok (.ok r)))])
              (address c.request).hex r := ⟨hcached, hdigest, c, by simp⟩
          rw [hkept]
          refine ⟨?_, fun r' hr' hcached' => ?_, fun _ => .inl ⟨r, rfl⟩⟩
          · exact TextStore.preserves_store (proper_address c.request) (.result hfresh)
              (.entry _ hfresh) v t (ht.append _)
          · obtain rfl := Except.ok.inj (Except.ok.inj hr')
            cases hcached.symm.trans hcached'

/-- The entry that is found under a digest is about a fresh answer. -/
theorem entryOf?_records (now : Moment) (hd : d.Proper) :
    InStep (Same (Records (σ := σ) past)) (fun found => ∀ e, found = some e →
      Fresh past e.digest e.report) (Results.entryOf? now d) (Results.entryOf? now d) := by
  have hentry := TextStore.finds (σ := σ) (p := OnRecord past) now (.entry hd)
  have hresult := TextStore.finds (σ := σ) (p := OnRecord past) now (.result hd)
  apply (Results.entryOf?_inStep hentry hresult).mono
  intro found hfound e he
  rcases hfound e he with ⟨text, htext, hread⟩ | ⟨text, r, htext, hread, rfl⟩
  · exact htext.fresh_of_entry hread
  · exact htext.fresh_of_result hread

theorem cached_records (now : Moment) (hex : String) :
    InStep (Same (Records (σ := σ) past)) (fun found => ∀ e, found = some e →
      Fresh past e.digest e.report) (Service.cached now hex) (Service.cached now hex) := by
  unfold Service.cached
  cases hofHex : RequestDigest.ofHex? hex with
  | none => exact .pure nofun
  | some d => exact entryOf?_records now (RequestDigest.proper_of_ofHex? hofHex)

theorem recent_records (now : Moment) (offset limit : UInt64) :
    InStep (Same (Records (σ := σ) past)) (fun es => ∀ e ∈ es, Fresh past e.digest e.report)
      (Service.recent now offset limit) (Service.recent now offset limit) := by
  apply Results.recent_inStep
  · exact fun _ _ hofHex => entryOf?_records now (RequestDigest.proper_of_ofHex? hofHex)
  · exact fun _ _ _ => TextStore.ranked_preserves.inStep

/-- A visit adds the texts of fresh answers only, and its reply is one of the history before it. -/
theorem visit_recalls (h : Records past m) :
    Records (past ++ [(x, (s.visit v m x).2)]) (s.visit v m x).1 ∧
      Recalls σ s v past x (s.visit v m x).2 := by
  cases x with
  | optimize c => exact serve_recalls h
  | cached now hex =>
    obtain ⟨hstate, hfound⟩ := inStep_same_iff.1 (cached_records now hex) v m h
    exact ⟨hstate.append _, fun e he => hfound _ he e rfl⟩
  | recent now offset limit =>
    obtain ⟨hstate, hfound⟩ := inStep_same_iff.1 (recent_records now offset limit) v m h
    exact ⟨hstate.append _, hfound⟩

theorem history_recalls_of_records {xs : List Visit} {before past later : History}
    (h : Records before m)
    (hsplit : s.history v xs m = past ++ (x, reply) :: later) :
    Recalls σ s v (before ++ past) x reply := by
  induction xs generalizing before past m with
  | nil => simp [history] at hsplit
  | cons y ys ih =>
    obtain ⟨hrecords, hrecalls⟩ := visit_recalls (s := s) (v := v) (x := y) h
    cases past with
    | nil =>
      obtain ⟨rfl, rfl⟩ := Prod.mk.inj (List.cons.inj hsplit).1
      rwa [List.append_nil]
    | cons p past =>
      obtain ⟨rfl, hrest⟩ := List.cons.inj hsplit
      have := ih hrecords hrest
      rwa [List.append_assoc] at this

omit [TextStore σ] in
theorem Recalls.behind (h : Recalls (Monitored σ) s v past x reply) :
    Recalls σ s v past x reply := by
  match x, reply, h with
  | .optimize c, .answer a, ⟨hrepeats, hanswers⟩ =>
    refine ⟨hrepeats, fun hc => (hanswers hc).imp_right ?_⟩
    exact fun ⟨f, hf, hwhy⟩ => ⟨f, hf, hwhy.imp_right fun hn h => hn (Monitored.lasts h)⟩
  | .cached _ _, .entry _, h => exact h
  | .recent _ _ _, .entries _, h => exact h

end Visits

/-! ### Whole histories -/

/-- Where nothing is kept at first and any calls to the backend may be refused, each reply is one of
the history before it. -/
theorem history_recalls {σ : Type} [Backend σ] [TextStore σ] (s : Service) (v : Verbosity)
    {behind : σ} (hempty : ∀ key text, ¬ TextStore.Has behind key text)
    (refuses : List BackendCall → BackendCall → Bool) {visits : List Visit} {past later : History}
    {x : Visit} {reply : Reply}
    (hsplit : s.history v visits (⟨behind, [], refuses⟩ : Monitored σ) =
      past ++ (x, reply) :: later) : Recalls σ s v past x reply := by
  have hrecords : Records [] (⟨behind, [], refuses⟩ : Monitored σ) :=
    fun key text _ h => absurd h (hempty key text)
  exact (history_recalls_of_records hrecords hsplit).behind

/-- The third call to the backend is refused: a report is kept, but the entry about it is not. -/
def sampleRefuses (calls : List BackendCall) (_ : BackendCall) : Bool := calls.length == 2

def sampleMonitored : Monitored MemoryStore := ⟨.empty, [], sampleRefuses⟩

/-- An empty folder in which a service may keep its reports. -/
def sampleFolder : FolderStore := ⟨sampleDisk, "cache", false, "4711", 0⟩

/-- The address of the sample request. -/
def sampleAddress : RequestDigest := address (sampleRequest none)

/-- The memory in which the sample report is kept. -/
def sampleKept : MemoryStore :=
  (MemoryStore.empty.set (sampleCall none).ended sampleAddress.resultKey
    (write (sampleReport none)) 60).1

/-- Behind the refusals, the report on the first request is kept, and then given again. -/
theorem serve_sample : (sampleService 60).serve none (sampleCall none) sampleMonitored =
    (⟨sampleKept, [.set sampleAddress.entryKey 60, .set sampleAddress.resultKey 60,
      .get sampleAddress.resultKey], sampleRefuses⟩, .ok (.ok (sampleReport none))) := by
  have hlookup : (Results.lookup (sampleCall none).begun sampleAddress none
      sampleMonitored).outcome =
        ({ sampleMonitored with calls := [.get sampleAddress.resultKey] }, .ok none) := rfl
  rw [serve_unfound (check_sample none) hlookup, reply_sample]
  rfl

/-- A report that is held behind is found where looking for it is not refused. -/
theorem lookup_monitored {m : MemoryStore} {now : Moment} {limit : Nat} {calls : List BackendCall}
    {refuses : List BackendCall → BackendCall → Bool}
    (h : m.Holds d.resultKey (write report) limit) (hnow : now.uptime < limit)
    (hfinite : isFinite report = true) (hrefuses : ¬ refuses calls (.get d.resultKey) = true) :
    (Results.lookup now d v (⟨m, calls, refuses⟩ : Monitored MemoryStore)).outcome =
      (⟨m, .get d.resultKey :: calls, refuses⟩, .ok (some report)) := by
  have hget : (Results.attempt (Backend.get now d.resultKey) v
      (⟨m, calls, refuses⟩ : Monitored MemoryStore)).outcome =
        (⟨m, .get d.resultKey :: calls, refuses⟩, .ok (.ok (some (write report)))) := by
    apply (Monitored.call_outcome _ _ _ _).trans
    rw [if_neg hrefuses]
    show (Monitored.mk (m.get _ _).1 _ _, Except.ok (m.get _ _).2) = _
    rw [h.get hnow]
  unfold Results.lookup
  rw [outcome_bind_ok hget]
  dsimp only
  rw [read?_write, if_pos hfinite]
  rfl

theorem serve_sample_again (calls : List BackendCall) (hcalls : calls.length = 3) :
    ((sampleService 60).serve none (sampleCall none)
      (⟨sampleKept, calls, sampleRefuses⟩ : Monitored MemoryStore)).2 =
        .ok (.ok (answerKept (sampleReport none) sampleAddress "shelf")) := by
  have hholds : sampleKept.Holds sampleAddress.resultKey (write (sampleReport none)) 60000000000 :=
    MemoryStore.holds_set rfl (deadline_sample none)
  have hrefuses : ¬ sampleRefuses calls (.get sampleAddress.resultKey) = true := by
    simp [sampleRefuses, hcalls]
  have hbegun : (sampleCall none).begun.uptime < 60000000000 := by decide
  have hlookup := lookup_monitored (v := none) hholds hbegun (isFinite_sample none) hrefuses
  exact congrArg Prod.snd (optimize_kept (check_sample none) hlookup)

/-- What a service owes to its history holds in memory and in a folder. -/
theorem history_recalls_sample :
    (∀ key text, ¬ TextStore.Has MemoryStore.empty key text) ∧
      (sampleService 60).history none
          [.optimize (sampleCall none), .optimize (sampleCall none)] sampleMonitored =
        [(.optimize (sampleCall none), .answer (.ok (.ok (sampleReport none))))] ++
          (.optimize (sampleCall none),
            .answer (.ok (.ok (answerKept (sampleReport none) sampleAddress "shelf")))) :: [] ∧
      Recalls MemoryStore (sampleService 60) none
        [(.optimize (sampleCall none), .answer (.ok (.ok (sampleReport none))))]
        (.optimize (sampleCall none))
        (.answer (.ok (.ok (answerKept (sampleReport none) sampleAddress "shelf")))) ∧
      (∀ key text, ¬ TextStore.Has sampleFolder key text) ∧
      ∀ visits past x reply later,
        (sampleService 60).history none visits
          (⟨sampleFolder, [], sampleRefuses⟩ : Monitored FolderStore) =
            past ++ (x, reply) :: later →
          Recalls FolderStore (sampleService 60) none past x reply := by
  have hempty : ∀ key text, ¬ TextStore.Has MemoryStore.empty key text :=
    fun _ _ => MemoryStore.not_has_empty
  have hfolder : ∀ key text, ¬ TextStore.Has sampleFolder key text :=
    fun _ _ => FolderStore.not_has_of_empty place_sample empty_sample
  have hsplit : (sampleService 60).history none
      [.optimize (sampleCall none), .optimize (sampleCall none)] sampleMonitored =
        [(.optimize (sampleCall none), .answer (.ok (.ok (sampleReport none))))] ++
          (.optimize (sampleCall none),
            .answer (.ok (.ok (answerKept (sampleReport none) sampleAddress "shelf")))) :: [] := by
    simp only [history, visit, serve_sample]
    rw [serve_sample_again _ rfl]
    rfl
  exact ⟨hempty, hsplit, history_recalls (sampleService 60) none hempty sampleRefuses hsplit,
    hfolder, fun _ _ _ _ _ h => history_recalls (sampleService 60) none hfolder sampleRefuses h⟩

end Service

end Guillotine
