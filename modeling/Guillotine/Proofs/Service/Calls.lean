import Guillotine.Proofs.Documents.Report
import Guillotine.Proofs.Service.Answers

/-! One call of a service that keeps its results in memory. The report that the memory holds for
the address of the request is the answer. If it holds none, the reply is packed, and kept for the
time to live: then it is found again by all calls for the same address until that time is over.
Where the time to live ends beyond the last point in time, the call ends in a fault and blocks the
memory, and from then on every request is packed anew. -/
namespace Guillotine

namespace Service

/-- A request at a moment, whose reply is ready at another one. -/
structure Call where
  begun : Moment
  ended : Moment
  request : Request

/-- What is seen of the answer to a call: a report, the reason why the request is turned down, or a
fault. -/
abbrev Answer := Checked (Except Rejection Report)

/-- The state after a call, and the answer. -/
def serve {σ : Type} [Backend σ] (s : Service) (v : Verbosity) (c : Call) (m : σ) : σ × Answer :=
  ((s.optimize c.begun c.ended c.request).run v m).outcome

namespace Call

/-- The reply to a call, packed anew. -/
def reply (c : Call) (s : Service) (v : Verbosity) : Answer :=
  ((s.reply (address c.request) c.request.ordered.toDemand (c.ended.since c.begun)).run.record v).2

/-- The report that a memory holds for a call. -/
def held? (c : Call) (m : MemoryStore) : Option Report :=
  Results.held? m c.begun (address c.request)

/-- A memory after looking for the report for a call. -/
def looked (c : Call) (m : MemoryStore) : MemoryStore :=
  (m.get c.begun (address c.request).resultKey).1

/-- Whether an answer is the fault of a report that cannot be kept, since its time to live ends
beyond the last point in time. -/
def Overflows (c : Call) (s : Service) (a : Answer) : Prop :=
  MemoryStore.deadline c.ended s.ttl = .error .deadlineOverflow ∧ a = .error .deadlineOverflow

end Call

variable {s : Service} {v : Verbosity} {m : MemoryStore} {c d : Call} {report : Report}

theorem looked_unblocked (h : m.valuesBlocked = false) : (c.looked m).valuesBlocked = false :=
  MemoryStore.get_valuesBlocked.trans h

theorem lookup_outcome :
    (Results.lookup c.begun (address c.request) v m).outcome = (c.looked m, .ok (c.held? m)) :=
  Results.lookup_outcome v m c.begun (address c.request)

/-! ### The ways to an answer -/

theorem serve_rejected {e : Rejection} (h : c.request.ordered.check = .error e) :
    s.serve v c m = (m, .ok (.error e)) :=
  optimize_rejected h

theorem serve_held (hcheck : c.request.ordered.check = .ok ()) (hheld : c.held? m = some report) :
    s.serve v c m =
      (c.looked m, .ok (.ok (answerKept report (address c.request) c.request.project))) := by
  have hlookup := lookup_outcome (v := v) (m := m) (c := c)
  rw [hheld] at hlookup
  exact optimize_kept hcheck hlookup

/-- Whatever the results are kept in, the reply to a call for which none is found is kept. -/
theorem serve_unfound {σ : Type} [Backend σ] {m t : σ} (hcheck : c.request.ordered.check = .ok ())
    (hlookup : (Results.lookup c.begun (address c.request) v m).outcome = (t, .ok none)) :
    s.serve v c m =
      match c.reply s v with
      | .error f => (t, .error f)
      | .ok (.error e) => (t, .ok (.error e))
      | .ok (.ok report) =>
        let kept := (Results.store c.ended s.ttl (address c.request) report v t).outcome
        (kept.1, kept.2.map fun _ => .ok report) :=
  optimize_missed hcheck hlookup

theorem serve_missed (hcheck : c.request.ordered.check = .ok ()) (hheld : c.held? m = none) :
    s.serve v c m =
      match c.reply s v with
      | .error f => (c.looked m, .error f)
      | .ok (.error e) => (c.looked m, .ok (.error e))
      | .ok (.ok report) =>
        let kept := (Results.store c.ended s.ttl (address c.request) report v (c.looked m)).outcome
        (kept.1, kept.2.map fun _ => .ok report) := by
  have hlookup := lookup_outcome (v := v) (m := m) (c := c)
  rw [hheld] at hlookup
  exact serve_unfound hcheck hlookup

/-- Where nothing is held, the reply is the answer, if it can be kept. -/
theorem serve_missed_answer (hcheck : c.request.ordered.check = .ok ())
    (hheld : c.held? m = none) :
    (s.serve v c m).2 = c.reply s v ∨ c.Overflows s (s.serve v c m).2 := by
  rw [serve_missed hcheck hheld]
  rcases c.reply s v with f | e | report
  · exact .inl rfl
  · exact .inl rfl
  · generalize hd : address c.request = d
    show Except.map _ (Results.store _ _ d report v (c.looked m)).value = _ ∨
      _ ∧ Except.map _ (Results.store _ _ d report v (c.looked m)).value = _
    cases hstore : (Results.store c.ended s.ttl d report v (c.looked m)).value with
    | ok u => exact .inl rfl
    | error f =>
      have hdeadline := Results.faultsOnly_store v _ f hstore
      obtain rfl := MemoryStore.eq_deadlineOverflow hdeadline
      exact .inr ⟨hdeadline, rfl⟩

/-- Where nothing is held and the time to live ends in time, the reply is the answer. -/
theorem serve_missed_reply {limit : Nat} (hcheck : c.request.ordered.check = .ok ())
    (hheld : c.held? m = none) (hlimit : MemoryStore.deadline c.ended s.ttl = .ok limit) :
    (s.serve v c m).2 = c.reply s v := by
  refine (serve_missed_answer hcheck hheld).resolve_right fun hoverflow => ?_
  cases hlimit.symm.trans hoverflow.1

/-- A report on a plan is for the project, and not one that was kept. -/
theorem report_fresh {p : Plan} {project : String} {elapsed : Duration} {side : Length}
    (h : p.report project elapsed side = .ok report) :
    report.cached = false ∧ report.summary.project = project := by
  obtain ⟨boards, -, h⟩ := bind_eq_ok_iff.1 h
  obtain ⟨waste, -, h⟩ := bind_eq_ok_iff.1 h
  rw [← Except.ok.inj h]
  exact ⟨rfl, rfl⟩

/-- A reply is the report on a plan for the request, with the digest of the request. -/
theorem exists_plan_of_reply (h : c.reply s v = .ok (.ok report)) :
    ∃ plan fresh, ((s.plan c.request.ordered.toDemand).run.record v).2 = .ok (.ok plan) ∧
      plan.report c.request.project (c.ended.since c.begun) s.settings.reusableSide = .ok fresh ∧
      report = { fresh with digest := (address c.request).hex } := by
  rw [Call.reply, reply_record] at h
  split at h
  · cases h
  · cases h
  next plan hplan =>
    obtain ⟨answer, hpresent, hanswer⟩ := map_eq_ok_iff.1 h
    rw [present_record] at hpresent
    obtain ⟨-, -, hreport⟩ := bind_eq_ok_iff.1 hpresent
    obtain ⟨fresh, hfresh, rfl⟩ := map_eq_ok_iff.1 hreport
    exact ⟨plan, fresh, hplan, hfresh, (Except.ok.inj hanswer).symm⟩

/-- The report on what is packed at once for a request in canonical order is the reply to it. -/
theorem reply_of_returns {plan : Plan} (hordered : c.request.ordered = c.request)
    (helapsed : c.ended.since c.begun = ⟨0, 0⟩)
    (hplan : Packing.Returns (s.plan c.request.toDemand) plan)
    (hpresent : (s.present (address c.request) c.request.project ⟨0, 0⟩ plan).value = .ok report) :
    c.reply s none = .ok (.ok report) := by
  have hvalue : ((s.plan c.request.toDemand).run.record none).2 = .ok (.ok plan) := by
    rw [Logged.record_none]
    exact hplan
  have hproject : c.request.toDemand.project = c.request.project := rfl
  rw [Call.reply, hordered, helapsed, reply_record, hvalue, hproject]
  dsimp only
  rw [Logged.record_none, hpresent]
  rfl

/-- A report that is packed anew says so, and has the digest and the project of the request. -/
theorem reply_fresh (h : c.reply s v = .ok (.ok report)) :
    report.cached = false ∧ report.digest = (address c.request).hex ∧
      report.summary.project = c.request.project := by
  obtain ⟨plan, fresh, -, hfresh, rfl⟩ := exists_plan_of_reply h
  obtain ⟨hcached, hproject⟩ := report_fresh hfresh
  exact ⟨hcached, rfl, hproject⟩

/-- Whatever the results are kept in, an answer that was not kept is the reply, packed anew. -/
theorem reply_of_fresh {σ : Type} [Backend σ] {m : σ} (h : (s.serve v c m).2 = .ok (.ok report))
    (hfresh : report.cached = false) : c.reply s v = .ok (.ok report) := by
  cases hcheck : c.request.ordered.check with
  | error e =>
    rw [serve, optimize_rejected hcheck] at h
    cases h
  | ok u =>
    rcases hlookup : (Results.lookup c.begun (address c.request) v m).outcome with ⟨t, f | kept⟩
    · rw [serve, optimize_stuck hcheck hlookup] at h
      cases h
    · cases kept with
      | some kept =>
        rw [serve, optimize_kept hcheck hlookup] at h
        obtain rfl := Except.ok.inj (Except.ok.inj h)
        cases hfresh
      | none =>
        rw [serve_unfound hcheck hlookup] at h
        split at h
        · cases h
        · cases h
        next hreply =>
          obtain ⟨-, -, hreport⟩ := map_eq_ok_iff.1 h
          rw [hreply, hreport]

/-! ### From call to call -/

/-- A report that was kept is the answer to the next call for the same address, while it lasts. -/
theorem serve_again {limit : Nat} (hc : c.request.ordered.check = .ok ())
    (hd : d.request.ordered.check = .ok ()) (haddress : address d.request = address c.request)
    (hheld : c.held? m = none) (hblocked : m.valuesBlocked = false)
    (hreply : c.reply s v = .ok (.ok report)) (hfinite : isFinite report = true)
    (hlimit : MemoryStore.deadline c.ended s.ttl = .ok limit) (hended : c.ended.uptime < limit)
    (hbegun : d.begun.uptime < limit) :
    (s.serve v d (s.serve v c m).1).2 =
      .ok (.ok (answerKept report (address d.request) d.request.project)) := by
  have hstate : (s.serve v c m).1.Holds (address d.request).resultKey (write report) limit := by
    rw [serve_missed hc hheld, hreply, haddress]
    exact Results.holds_store (looked_unblocked hblocked) hlimit hended
  have hfound : d.held? (s.serve v c m).1 = some report := by
    rw [Call.held?, Results.held?_of_holds hstate hbegun, read?_write, if_pos hfinite]
  rw [serve_held hd hfound]

/-- Where a report cannot be kept, the answer is a fault, and the memory is blocked. -/
theorem serve_overflow {e : Fault} (hcheck : c.request.ordered.check = .ok ())
    (hheld : c.held? m = none) (hblocked : m.valuesBlocked = false)
    (hreply : c.reply s v = .ok (.ok report))
    (hdeadline : MemoryStore.deadline c.ended s.ttl = .error e) :
    (s.serve v c m).1.valuesBlocked = true ∧ (s.serve v c m).2 = .error e := by
  obtain ⟨t, ht, hstore⟩ := Results.store_overflow (v := v) (d := address c.request) (r := report)
    (looked_unblocked (c := c) hblocked) hdeadline
  rw [serve_missed hcheck hheld, hreply]
  dsimp only
  rw [hstore]
  exact ⟨ht, rfl⟩

/-- With a blocked memory, every request is packed anew, and no report is kept. -/
theorem serve_blocked (hcheck : c.request.ordered.check = .ok ()) (h : m.valuesBlocked = true) :
    (s.serve v c m).2 = c.reply s v := by
  have hlooked : (c.looked m).valuesBlocked = true := MemoryStore.get_valuesBlocked.trans h
  rw [serve_missed hcheck (Results.held?_blocked h)]
  rcases c.reply s v with f | e | report
  · rfl
  · rfl
  · dsimp only
    rw [Results.store_blocked hlooked]
    rfl

end Service

end Guillotine
