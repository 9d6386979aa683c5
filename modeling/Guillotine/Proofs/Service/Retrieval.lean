import Guillotine.Proofs.Documents.Entry
import Guillotine.Proofs.Service.History
import Guillotine.Proofs.Service.Visits

/-! A report that was given is given again. While no time to live runs out, a memory keeps each text
that it holds, and a call puts no other text in its place, for it finds the one that is there. So a
report whose numbers are finite, and which can therefore be read back, is found by every later call
for the same request, and there is an entry about it. -/
namespace Guillotine

/-! ### A memory whose texts last -/

namespace MemoryStore

open Run

variable {m : MemoryStore} {now : Moment} {ttl : UInt64} {key other text : String}
  {limit deadline : Nat}

/-- Texts about reports are under the keys of their digests. -/
def Named (key text : String) : Prop :=
  ∀ (d : RequestDigest) (e : Entry), key = d.entryKey → read? text = some e → e.digest = d.hex

theorem named_result (d : RequestDigest) (text : String) : Named d.resultKey text :=
  fun _ _ hkey _ => absurd hkey.symm (RequestDigest.entryKey_ne_resultKey _ _)

theorem named_entry (d : RequestDigest) (t : Timestamp) (r : Report) :
    Named d.entryKey (write (⟨d.hex, t, r⟩ : Entry)) := by
  intro d' e hkey hread
  obtain rfl := RequestDigest.entryKey_inj hkey
  exact (Entry.eq_of_read?_write hread).1

/-- All texts last at least up to some uptime, and are where they belong. -/
structure Lasting (limit : Nat) (m : MemoryStore) : Prop where
  unblocked : m.valuesBlocked = false
  lasts : ∀ e ∈ m.values.entries, limit ≤ e.2.deadline
  named : m.AllTexts Named

theorem lasting_empty : empty.Lasting limit := ⟨rfl, nofun, allTexts_empty⟩

theorem Lasting.of_values {m' : MemoryStore} (h : m.Lasting limit) (hvalues : m'.values = m.values)
    (hblocked : m'.valuesBlocked = m.valuesBlocked) : m'.Lasting limit := by
  refine ⟨hblocked.trans h.unblocked, ?_, ?_⟩
  · rw [hvalues]
    exact h.lasts
  · intro e he
    exact h.named e (hvalues ▸ he)

theorem Lasting.le_of_holds (h : m.Lasting limit) (hholds : m.Holds key text deadline) :
    limit ≤ deadline := by
  obtain ⟨e, he, hkept⟩ := Option.map_eq_some_iff.1 hholds.held
  have hlimit := h.lasts e (List.mem_of_find?_eq_some he)
  rwa [hkept] at hlimit

theorem Lasting.get (h : m.Lasting limit) : (m.get now key).1.Lasting limit :=
  ⟨get_valuesBlocked.trans h.unblocked, fun e he => h.lasts e (mem_get he), get_allTexts h.named⟩

theorem Lasting.set (h : m.Lasting limit) (hdeadline : MemoryStore.deadline now ttl = .ok deadline)
    (hlimit : limit ≤ deadline) (hnamed : Named key text) :
    (m.set now key text ttl).1.Lasting limit := by
  refine ⟨?_, fun e he => ?_, set_allTexts h.named hnamed⟩
  · simp [MemoryStore.set, h.unblocked, hdeadline]
  · rcases mem_set he with hold | ⟨-, -, hlast⟩
    · exact h.lasts e hold
    · obtain rfl := Except.ok.inj (hdeadline.symm.trans hlast)
      exact hlimit

/-- Where a time to live that is counted from some uptime ends. -/
theorem deadline_eq (h : (now.uptime + ttl.toNat * Duration.nanosPerSecond) /
      Duration.nanosPerSecond ≤ greatestUptime) :
    MemoryStore.deadline now ttl = .ok (now.uptime + ttl.toNat * Duration.nanosPerSecond) :=
  if_pos h

end MemoryStore

namespace Results

open MemoryStore Run

variable {m : MemoryStore} {v : Verbosity} {now : Moment} {ttl : UInt64} {d d' : RequestDigest}
  {r : Report} {text : String} {limit deadline : Nat}

theorem preserves_store_lasting (hdeadline : MemoryStore.deadline now ttl = .ok deadline)
    (hlimit : limit ≤ deadline) : Preserves (Lasting limit) (store now ttl d r) := by
  refine composed_store (composable_preserves _).congruence ?_ ?_ ?_ ?_
  · exact fun _ _ h => h.set hdeadline hlimit (named_entry d now.wall r)
  · exact fun _ m h => h.of_values (removeScored_values m _ _ _).1 (removeScored_values m _ _ _).2
  · exact fun _ m h => h.of_values (insertScored_values m _ _ _).1 (insertScored_values m _ _ _).2
  · exact fun _ _ h => h.set hdeadline hlimit (named_result d _)

/-- A text about one report stays where it is while another report is kept. -/
theorem preserves_store_holds (hdeadline : MemoryStore.deadline now ttl = .ok deadline)
    (hnow : now.uptime < limit) (hd : d ≠ d') :
    Preserves (Holds d.resultKey text limit) (store now ttl d' r) := by
  refine composed_store (composable_preserves _).congruence ?_ ?_ ?_ ?_
  · exact fun _ _ h => h.set hnow (RequestDigest.entryKey_ne_resultKey _ _).symm hdeadline
  · exact fun _ m h => h.of_eq (removeScored_values m _ _ _).1 (removeScored_values m _ _ _).2
  · exact fun _ m h => h.of_eq (insertScored_values m _ _ _).1 (insertScored_values m _ _ _).2
  · exact fun _ _ h => h.set hnow (fun hkey => hd (RequestDigest.resultKey_inj hkey)) hdeadline

/-- While a result is held, there is an entry about it. -/
theorem entryOf?_of_holds (hnamed : m.AllTexts Named) (h : m.Holds d.resultKey text limit)
    (hnow : now.uptime < limit) (hread : read? text = some r) :
    ∃ e, (entryOf? now d v m).value = .ok (some e) ∧ e.digest = d.hex := by
  have hother := h.get_other hnow d.entryKey
  have hresult : (m.get now d.entryKey).1.find? now d.resultKey = some text := by
    rw [find?, hother.get hnow]
  have hentry : (document? now d.entryKey v m).outcome = ((m.get now d.entryKey).1,
      .ok ((m.find? now d.entryKey).bind fun text => (read? text : Option Entry))) := by
    rw [document?_eq_fetch, fetch_outcome]
  cases hfound : (m.find? now d.entryKey).bind fun text => (read? text : Option Entry) with
  | some e =>
    obtain ⟨told, htold, hreadable⟩ := Option.bind_eq_some_iff.1 hfound
    rw [hfound] at hentry
    have houtcome : (entryOf? now d v m).outcome = (_, .ok (some e)) := outcome_bind_ok hentry
    exact ⟨e, congrArg Prod.snd houtcome, find?_text hnamed htold d e rfl hreadable⟩
  | none =>
    have hreport : (document? now d.resultKey v (m.get now d.entryKey).1).outcome =
        (((m.get now d.entryKey).1.get now d.resultKey).1, .ok (some r)) := by
      rw [document?_eq_fetch, fetch_outcome, hresult, Option.bind_some, hread]
    rw [hfound] at hentry
    have houtcome : (entryOf? now d v m).outcome = (_, .ok (some ⟨d.hex, now.wall, r⟩)) :=
      (outcome_bind_ok hentry).trans ((outcome_bind_ok hreport).trans outcome_note_bind)
    exact ⟨_, congrArg Prod.snd houtcome, rfl⟩

end Results

namespace Service

open MemoryStore Run

variable {s : Service} {v : Verbosity} {m : MemoryStore} {c d : Call} {x : Visit} {a r : Report}
  {start limit : Nat} {text : String}

/-! ### Histories in which no time runs out -/

/-- Where the times to live end that begin with some uptime. -/
def horizon (s : Service) (start : Nat) : Nat :=
  start + s.ttl.toNat * Duration.nanosPerSecond

/-- Whether a visit falls into the time to live that begins with some uptime. -/
def InTime (s : Service) (start : Nat) (x : Visit) : Prop :=
  ∀ now ∈ x.moments, start ≤ now.uptime ∧ now.uptime < s.horizon start

/-- Whether all clocks can show where the times to live end that begin before the first one ends. -/
def Lasts (s : Service) (start : Nat) : Prop :=
  s.horizon (s.horizon start) / Duration.nanosPerSecond ≤ greatestUptime

theorem deadline_of_inTime (hlasts : s.Lasts start) (hx : s.InTime start x) {now : Moment}
    (hnow : now ∈ x.moments) : ∃ deadline, MemoryStore.deadline now s.ttl = .ok deadline ∧
      s.horizon start ≤ deadline ∧ now.uptime < deadline := by
  obtain ⟨hfrom, hto⟩ := hx now hnow
  unfold Lasts horizon at *
  refine ⟨_, deadline_eq (Nat.le_trans (Nat.div_le_div_right ?_) hlasts), ?_, ?_⟩ <;> omega

/-! ### One visit -/

theorem visit_lasting (hlasts : s.Lasts start) (hx : s.InTime start x)
    (h : m.Lasting (s.horizon start)) : (s.visit v m x).1.Lasting (s.horizon start) := by
  refine visit_preserves (fun _ _ _ h => h.get) (fun start stop _ _ m h =>
    h.of_values (ranked_values m _ start stop).1 (ranked_values m _ start stop).2) ?_ h
  rintro c rfl report
  obtain ⟨deadline, hdeadline, hlimit, -⟩ :=
    deadline_of_inTime hlasts hx (by simp [Visit.moments] : c.ended ∈ _)
  exact Results.preserves_store_lasting hdeadline hlimit

/-- A text that can be read as a report is not replaced by a visit, since the visit finds it. -/
theorem visit_holds {d : RequestDigest} (hlasts : s.Lasts start) (hx : s.InTime start x)
    (hlimit : s.horizon start ≤ limit) (hread : read? text = some r)
    (h : m.Holds d.resultKey text limit) : (s.visit v m x).1.Holds d.resultKey text limit := by
  have hbegun : x.begun.uptime < limit :=
    Nat.lt_of_lt_of_le (hx _ x.begun_mem_moments).2 hlimit
  by_cases hsame : ∃ c, x = .optimize c ∧ address c.request = d
  · obtain ⟨c, rfl, rfl⟩ := hsame
    show (s.serve v c m).1.Holds _ _ _
    cases hcheck : c.request.ordered.check with
    | error e =>
      rw [serve_rejected hcheck]
      exact h
    | ok _ =>
      have hheld : c.held? m = some r := (Results.held?_of_holds h hbegun).trans hread
      rw [serve_held hcheck hheld]
      exact h.get_other hbegun _
  · refine visit_preserves (fun key _ _ h => h.get_other hbegun key) (fun start stop _ _ m h =>
      h.of_eq (ranked_values m _ start stop).1 (ranked_values m _ start stop).2) ?_ h
    rintro c rfl report
    obtain ⟨deadline, hdeadline, -⟩ :=
      deadline_of_inTime hlasts hx (by simp [Visit.moments] : c.ended ∈ _)
    have hended : c.ended.uptime < limit :=
      Nat.lt_of_lt_of_le (hx c.ended (by simp [Visit.moments])).2 hlimit
    have hother : d ≠ address c.request := fun hd => hsame ⟨c, rfl, hd.symm⟩
    exact Results.preserves_store_holds hdeadline hended hother

/-- After a report was given, a text is held from which it can be given again. -/
theorem serve_holds (hlasts : s.Lasts start) (hx : s.InTime start (.optimize c))
    (h : m.Lasting (s.horizon start)) (hanswer : (s.serve v c m).2 = .ok (.ok a))
    (hfinite : isFinite a = true) : c.request.ordered.check = .ok () ∧ ∃ text limit r,
      (s.serve v c m).1.Holds (address c.request).resultKey text limit ∧
      s.horizon start ≤ limit ∧ read? text = some r ∧
      answerKept r (address c.request) c.request.project = { a with cached := true } := by
  cases hcheck : c.request.ordered.check with
  | error e =>
    rw [serve_rejected hcheck] at hanswer
    cases hanswer
  | ok _ =>
    cases hheld : c.held? m with
    | some r =>
      obtain ⟨text, hfind, hread⟩ := Option.bind_eq_some_iff.1 hheld
      obtain ⟨limit, hholds, hnow⟩ := exists_holds_of_find? hfind
      rw [serve_held hcheck hheld] at hanswer ⊢
      obtain rfl := Except.ok.inj (Except.ok.inj hanswer)
      exact ⟨rfl, text, limit, r, hholds.get_other hnow _, h.le_of_holds hholds, hread, rfl⟩
    | none =>
      obtain ⟨deadline, hdeadline, hlimit, hended⟩ :=
        deadline_of_inTime hlasts hx (by simp [Visit.moments] : c.ended ∈ _)
      have hlooked : (c.looked m).valuesBlocked = false := looked_unblocked h.unblocked
      rw [serve_missed hcheck hheld] at hanswer ⊢
      rcases hreply : c.reply s v with f | e | r
      · rw [hreply] at hanswer
        cases hanswer
      · rw [hreply] at hanswer
        cases hanswer
      · obtain ⟨hcached, hdigest, hproject⟩ := reply_fresh hreply
        rw [hreply] at hanswer
        have hvalue : (Results.store c.ended s.ttl (address c.request) r v (c.looked m)).value.map
            (fun _ => Except.ok r) = .ok (.ok a) := hanswer
        have hsame : r = a := by
          cases hstore :
              (Results.store c.ended s.ttl (address c.request) r v (c.looked m)).value with
          | error f =>
            rw [hstore] at hvalue
            cases hvalue
          | ok _ =>
            rw [hstore] at hvalue
            exact Except.ok.inj (Except.ok.inj hvalue)
        subst hsame
        refine ⟨rfl, write r, deadline, r, Results.holds_store hlooked hdeadline hended, hlimit,
          ?_, ?_⟩
        · rw [read?_write, if_pos hfinite]
        · rw [answerKept, ← hdigest, ← hproject]

/-! ### Whole histories -/

/-- In a history in which no time runs out, a report with finite numbers that was given is given
again for the same request, and there is an entry about it. -/
theorem optimize_again (s : Service) (v : Verbosity) {start : Nat} {before later : List Visit}
    {c d : Call} {now : Moment} {a : Report} (hlasts : s.Lasts start)
    (htime : ∀ x ∈ before ++ .optimize c :: (later ++ [.optimize d, .cached now a.digest]),
      s.InTime start x)
    (hanswer : (s.serve v c (s.after v before MemoryStore.empty)).2 = .ok (.ok a))
    (hfinite : isFinite a = true) (hrequest : d.request = c.request) :
    (s.serve v d (s.after v (before ++ .optimize c :: later) MemoryStore.empty)).2 =
        .ok (.ok { a with cached := true }) ∧
      ∃ e, (s.visit v (s.after v (before ++ .optimize c :: later) MemoryStore.empty)
        (.cached now a.digest)).2 = .entry (.ok (some e)) ∧ e.digest = a.digest := by
  rw [List.forall_mem_append, List.forall_mem_cons, List.forall_mem_append, List.forall_mem_cons,
    List.forall_mem_singleton] at htime
  obtain ⟨hbefore, hc, hlater, hd, hcached⟩ := htime
  have hlasting : (s.after v before MemoryStore.empty).Lasting (s.horizon start) :=
    after_invariant (fun x hx _ => visit_lasting hlasts (hbefore x hx)) lasting_empty
  rw [after_append]
  generalize s.after v before MemoryStore.empty = m at hlasting hanswer ⊢
  obtain ⟨hcheck, text, limit, r, hholds, hlimit, hread, hkept⟩ :=
    serve_holds hlasts hc hlasting hanswer hfinite
  have hserved : (s.serve v c m).1.Lasting (s.horizon start) := visit_lasting hlasts hc hlasting
  -- What is held after the first answer is held to the end.
  change (s.serve v d (s.after v later (s.serve v c m).1)).2 = _ ∧
    ∃ e, (s.visit v (s.after v later (s.serve v c m).1) _).2 = _ ∧ _
  have hend := after_invariant (fun x hx _ => visit_lasting (v := v) hlasts (hlater x hx)) hserved
  have hheld := after_invariant
    (fun x hx _ => visit_holds (v := v) hlasts (hlater x hx) hlimit hread) hholds
  generalize s.after v later (s.serve v c m).1 = n at hend hheld ⊢
  constructor
  · have hbegun : d.begun.uptime < limit :=
      Nat.lt_of_lt_of_le (hd _ (Visit.optimize d).begun_mem_moments).2 hlimit
    have hfound : d.held? n = some r := by
      rw [Call.held?, hrequest]
      exact (Results.held?_of_holds hheld hbegun).trans hread
    rw [serve_held (hrequest ▸ hcheck) hfound, hrequest, hkept]
  · have hnow : now.uptime < limit :=
      Nat.lt_of_lt_of_le (hcached _ (Visit.cached now a.digest).begun_mem_moments).2 hlimit
    have hdigest : a.digest = (address c.request).hex := (congrArg Report.digest hkept).symm
    obtain ⟨e, hentry, he⟩ := Results.entryOf?_of_holds (v := v) hend.named hheld hnow hread
    refine ⟨e, ?_, he.trans hdigest.symm⟩
    show Reply.entry (Service.cached now a.digest v n).value = _
    rw [hdigest, Service.cached, (proper_address c.request).ofHex?]
    exact congrArg Reply.entry hentry

theorem serve_sample_fresh : ((sampleService 60).serve none (sampleCall none) MemoryStore.empty).2 =
    .ok (.ok (sampleReport none)) := by
  rw [serve_missed_reply (s := sampleService 60) (check_sample none) rfl (deadline_sample none),
    reply_sample]

theorem inTime_sample : ∀ x ∈ [] ++ .optimize (sampleCall none) :: ([] ++
    [.optimize (sampleCall none), .cached ⟨⟨0⟩, 0⟩ (sampleReport none).digest]),
      (sampleService 60).InTime 0 x := by
  simp [InTime, Visit.moments, sampleCall, horizon, sampleService, Duration.nanosPerSecond]

/-- The report on the sample request is given again, and there is an entry about it. -/
theorem optimize_again_sample : (sampleService 60).Lasts 0 ∧
    (∀ x ∈ [] ++ .optimize (sampleCall none) :: ([] ++
      [.optimize (sampleCall none), .cached ⟨⟨0⟩, 0⟩ (sampleReport none).digest]),
        (sampleService 60).InTime 0 x) ∧
    isFinite (sampleReport none) = true ∧
    ((sampleService 60).serve none (sampleCall none)
      ((sampleService 60).after none ([] ++ .optimize (sampleCall none) :: [])
        MemoryStore.empty)).2 =
        .ok (.ok { sampleReport none with cached := true }) ∧
    ∃ e, ((sampleService 60).visit none
      ((sampleService 60).after none ([] ++ .optimize (sampleCall none) :: []) MemoryStore.empty)
        (.cached ⟨⟨0⟩, 0⟩ (sampleReport none).digest)).2 = .entry (.ok (some e)) ∧
      e.digest = (sampleReport none).digest := by
  have hlasts : (sampleService 60).Lasts 0 := by
    simp [Lasts, horizon, sampleService, Duration.nanosPerSecond, MemoryStore.greatestUptime]
  exact ⟨hlasts, inTime_sample, isFinite_sample none,
    optimize_again (sampleService 60) none hlasts inTime_sample serve_sample_fresh
      (isFinite_sample none) rfl⟩

/-! ### Reports that cannot be read back -/

/-- No result and no entry can be read from a text. -/
def Unreadable (key text : String) : Prop :=
  (∀ d : RequestDigest, key = d.resultKey → (read? text : Option Report) = none) ∧
    ∀ d : RequestDigest, key = d.entryKey → (read? text : Option Entry) = none

theorem find?_unreadable {now : Moment} {d : RequestDigest} (h : m.AllTexts Unreadable) :
    ((m.find? now d.resultKey).bind fun text => (read? text : Option Report)) = none ∧
      ((m.find? now d.entryKey).bind fun text => (read? text : Option Entry)) = none := by
  constructor
  · rw [Option.bind_eq_none_iff]
    exact fun text hfind => (find?_text h hfind).1 d rfl
  · rw [Option.bind_eq_none_iff]
    exact fun text hfind => (find?_text h hfind).2 d rfl

/-- A report that cannot be read back is packed anew, and the texts about it cannot be read. -/
theorem serve_unreadable {deadline : Nat} (h : m.AllTexts Unreadable)
    (hcheck : c.request.ordered.check = .ok ()) (hreply : c.reply s v = .ok (.ok a))
    (hinfinite : isFinite a = false)
    (hdeadline : MemoryStore.deadline c.ended s.ttl = .ok deadline) :
    (s.serve v c m).1.AllTexts Unreadable ∧ (s.serve v c m).2 = .ok (.ok a) := by
  have hheld : c.held? m = none := (find?_unreadable h).1
  constructor
  · have hresult : Unreadable (address c.request).resultKey (write a) := by
      refine ⟨fun d _ => ?_, fun d hd => absurd hd.symm (RequestDigest.entryKey_ne_resultKey _ _)⟩
      rw [read?_write, hinfinite]
      rfl
    have hentry : Unreadable (address c.request).entryKey
        (write (⟨(address c.request).hex, c.ended.wall, a⟩ : Entry)) := by
      refine ⟨fun d hd => absurd hd (RequestDigest.entryKey_ne_resultKey _ _), fun d _ => ?_⟩
      rw [Entry.read?_write, Option.bind_eq_none_iff]
      intro t _
      rw [hinfinite]
      rfl
    rw [serve_missed hcheck hheld, hreply]
    exact Results.preserves_store hresult hentry v _ (get_allTexts h)
  · rw [serve_missed_reply hcheck hheld hdeadline, hreply]

/-- There is no entry about a report that cannot be read back. -/
theorem cached_unreadable {now : Moment} {hex : String} (h : m.AllTexts Unreadable) :
    (s.visit v m (.cached now hex)).2 = .entry (.ok none) := by
  show Reply.entry (Service.cached now hex v m).value = _
  unfold Service.cached
  cases RequestDigest.ofHex? hex with
  | none => rfl
  | some d =>
    have hentry : (Results.document? now d.entryKey v m).outcome =
        ((m.get now d.entryKey).1, .ok (none : Option Entry)) := by
      rw [Results.document?_eq_fetch, Results.fetch_outcome, (find?_unreadable h).2]
    have hreport : (Results.document? now d.resultKey v (m.get now d.entryKey).1).outcome =
        (((m.get now d.entryKey).1.get now d.resultKey).1, .ok (none : Option Report)) := by
      rw [Results.document?_eq_fetch, Results.fetch_outcome, (find?_unreadable (get_allTexts h)).1]
    have houtcome : (Results.entryOf? now d v m).outcome = (_, .ok none) :=
      (outcome_bind_ok hentry).trans (outcome_bind_ok hreport)
    exact congrArg (fun o => Reply.entry o.2) houtcome

/-! ### A report that is lost -/

/-- A price that is finite, while twice the price is not. -/
@[irreducible]
def goldPrice : Float := 1e308

def goldSheet : Material := ⟨"gold", 12, 10, 1, goldPrice, none⟩

def goldSaw : Saw := ⟨0, 1, 1, 1, 1⟩

/-- A request for two whole sheets without their trims. -/
def goldRequest : Request where
  project := "vault"
  cuts := [⟨10, 8, 2, "gold", none, true, none, 0⟩]
  materials := [goldSheet]
  saw := goldSaw

def goldCall : Call := ⟨⟨⟨0⟩, 0⟩, ⟨⟨0⟩, 0⟩, goldRequest⟩

def goldPiece : Piece := ⟨"c1", "gold", 10, 8, 2, true, 0, none, none⟩

def goldPlan : Plan where
  layouts := [⟨goldSheet, 1, ⟨1, 1, 10, 8⟩, [⟨"c1_1", none, 1, 1, 10, 8, false⟩], []⟩,
    ⟨goldSheet, 2, ⟨1, 1, 10, 8⟩, [⟨"c1_2", none, 1, 1, 10, 8, false⟩], []⟩]
  unplaced := []

theorem ordered_gold : goldRequest.ordered = goldRequest := by
  simp [Request.ordered, goldRequest]

theorem validate_gold : goldSheet.validate = .ok () := by
  have hprice : (!goldPrice.isFinite || goldPrice < 0) = false := by decide +kernel
  have hflaw : goldSheet.flaw? = none := by
    unfold Material.flaw?
    rw [if_neg (by decide), if_neg (by decide)]
    exact if_neg (Bool.not_eq_true _ ▸ hprice)
  rw [Material.validate, hflaw]

theorem check_gold : goldRequest.ordered.check = .ok () := by
  have hvalid : goldRequest.materials.forM Material.validate = .ok () := by
    show (goldSheet.validate >>= fun _ => _) = _
    rw [validate_gold]
    rfl
  rw [ordered_gold, Request.check, hvalid]
  rfl

theorem pack_gold :
    Packing.Returns (pack .standard (.ofList [goldSheet]) goldSaw [goldPiece]) goldPlan := by
  have hrank : Packer.ranked [goldPiece] = goldPiece.copies :=
    List.mergeSort_of_pairwise (by decide)
  have hcheck : Packer.checkAll (.ofList [goldSheet]) goldSaw [goldPiece] = .ok [goldSheet] := by
    show (goldSheet.validate >>= fun _ => _) = _
    rw [validate_gold]
    rfl
  unfold pack
  rw [hrank, hcheck]
  rfl

/-- What the report on the request says about costs is what the plan says. -/
theorem reply_gold : ∃ a, goldCall.reply (sampleService 3600) none = .ok (.ok a) ∧
    a.costs = goldPlan.costs :=
  ⟨_, reply_of_returns ordered_gold since_start pack_gold rfl, rfl⟩

/-- The report on two sheets of gold is packed anew for each call, and there is never an entry about
it, though no time runs out. -/
theorem optimize_again_lost : (sampleService 3600).Lasts 0 ∧
    (∀ x ∈ [Visit.optimize goldCall, .optimize goldCall,
        .cached ⟨⟨0⟩, 0⟩ (address goldRequest).hex],
      (sampleService 3600).InTime 0 x) ∧
    ∃ a, a.cached = false ∧ a.digest = (address goldRequest).hex ∧
      (sampleService 3600).history none
        [.optimize goldCall, .optimize goldCall, .cached ⟨⟨0⟩, 0⟩ a.digest] MemoryStore.empty =
        [(.optimize goldCall, .answer (.ok (.ok a))), (.optimize goldCall, .answer (.ok (.ok a))),
          (.cached ⟨⟨0⟩, 0⟩ a.digest, .entry (.ok none))] := by
  refine ⟨?_, ?_, ?_⟩
  · simp [Lasts, horizon, sampleService, Duration.nanosPerSecond, MemoryStore.greatestUptime]
  · simp [InTime, Visit.moments, goldCall, horizon, sampleService, Duration.nanosPerSecond]
  · obtain ⟨a, hreply, hcosts⟩ := reply_gold
    obtain ⟨hcached, hdigest, -⟩ := reply_fresh hreply
    have hinfinite : isFinite a = false := by
      have htotal : goldPlan.costs.total.isFinite = false := by decide +kernel
      have hsum : isFinite a.costs = false := by
        rw [hcosts]
        exact (congrArg (_ && ·) htotal).trans (Bool.and_false _)
      show (isFinite a.summary && isFinite a.costs && isFinite a.boards) = false
      rw [hsum, Bool.and_false, Bool.false_and]
    have hdeadline : MemoryStore.deadline goldCall.ended (sampleService 3600).ttl =
        .ok 3600000000000 := by
      simp [MemoryStore.deadline, MemoryStore.greatestUptime, goldCall, Duration.nanosPerSecond,
        sampleService]
    obtain ⟨hfirst, hanswer⟩ := serve_unreadable (m := MemoryStore.empty) allTexts_empty check_gold
      hreply hinfinite hdeadline
    obtain ⟨hsecond, hanswer'⟩ := serve_unreadable hfirst check_gold hreply hinfinite hdeadline
    have hentry : ((sampleService 3600).visit none
        ((sampleService 3600).serve none goldCall
          ((sampleService 3600).serve none goldCall MemoryStore.empty).1).1
        (.cached ⟨⟨0⟩, 0⟩ a.digest)).2 = .entry (.ok none) := cached_unreadable hsecond
    refine ⟨a, hcached, hdigest, ?_⟩
    simp only [history, List.cons.injEq, Prod.mk.injEq, true_and, and_true]
    exact ⟨congrArg Reply.answer hanswer, congrArg Reply.answer hanswer', hentry⟩

end Service

end Guillotine
