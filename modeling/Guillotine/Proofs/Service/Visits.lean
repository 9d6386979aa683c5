import Guillotine.Proofs.Cache.Composed
import Guillotine.Proofs.Request.Digest
import Guillotine.Proofs.Service.Calls

/-! Visits to a service: requests to be answered, and questions about the results that are kept. A
history is a list of visits, one after the other, each with its reply. A visit is composed of calls
to the backend, so what goes in step for each of them goes in step for the visit. -/
namespace Guillotine

namespace Service

theorem proper_address (r : Request) : (address r).Proper := RequestDigest.proper_ofCanonical _

/-- What a service is asked. -/
inductive Visit where
  /-- For the report on a request. -/
  | optimize (call : Call)
  /-- For the entry about the report with a digest. -/
  | cached (now : Moment) (hex : String)
  /-- For the entries about some of the latest reports. -/
  | recent (now : Moment) (offset limit : UInt64)

/-- What a service replies. -/
inductive Reply where
  | answer (answer : Answer)
  | entry (found : Checked (Option Entry))
  | entries (found : Checked (List Entry))

/-- Some visits with their replies. -/
abbrev History := List (Visit × Reply)

/-- What the clocks show when a visit begins. -/
def Visit.begun : Visit → Moment
  | .optimize c => c.begun
  | .cached now _ => now
  | .recent now _ _ => now

/-- What the clocks show when a visit ends. -/
def Visit.ended : Visit → Moment
  | .optimize c => c.ended
  | .cached now _ => now
  | .recent now _ _ => now

/-- What the clocks show in a visit. -/
def Visit.moments : Visit → List Moment
  | .optimize c => [c.begun, c.ended]
  | .cached now _ => [now]
  | .recent now _ _ => [now]

theorem Visit.begun_mem_moments (x : Visit) : x.begun ∈ x.moments := by
  cases x <;> exact List.mem_cons_self

theorem Visit.ended_mem_moments (x : Visit) : x.ended ∈ x.moments := by
  cases x with
  | optimize c => exact List.mem_cons_of_mem _ List.mem_cons_self
  | cached now hex => exact List.mem_cons_self
  | recent now offset limit => exact List.mem_cons_self

variable {σ τ : Type} [Backend σ] [Backend τ]

/-- The state after a visit, and the reply. -/
def visit (s : Service) (v : Verbosity) (m : σ) : Visit → σ × Reply
  | .optimize c => ((s.serve v c m).1, .answer (s.serve v c m).2)
  | .cached now hex =>
    let turn := Service.cached now hex v m
    (turn.state, .entry turn.value)
  | .recent now offset limit =>
    let turn := Service.recent now offset limit v m
    (turn.state, .entries turn.value)

/-- The state after some visits. -/
def after (s : Service) (v : Verbosity) : List Visit → σ → σ
  | [], m => m
  | x :: xs, m => after s v xs (s.visit v m x).1

/-- The history of some visits. -/
def history (s : Service) (v : Verbosity) : List Visit → σ → History
  | [], _ => []
  | x :: xs, m => (x, (s.visit v m x).2) :: history s v xs (s.visit v m x).1

theorem after_append (s : Service) (v : Verbosity) (xs ys : List Visit) (m : σ) :
    s.after v (xs ++ ys) m = s.after v ys (s.after v xs m) := by
  induction xs generalizing m with
  | nil => rfl
  | cons x xs ih => exact ih _

/-- A property that visits keep is there after all of them. -/
theorem after_invariant {P : σ → Prop} {s : Service} {v : Verbosity} {xs : List Visit} {m : σ}
    (h : ∀ x ∈ xs, ∀ m, P m → P (s.visit v m x).1) (hm : P m) : P (s.after v xs m) := by
  induction xs generalizing m with
  | nil => exact hm
  | cons x xs ih =>
    rw [List.forall_mem_cons] at h
    exact ih h.2 (h.1 m hm)

/-! ### Visits in step -/

open Run

variable {R R' : σ → τ → Prop} {s : Service} {v : Verbosity} {m : σ} {n : τ}
  {now begun ended : Moment}
  {r : Request} {x : Visit}

theorem prepare_inStep (hlookup : InStep R (fun _ => True) (Results.lookup begun (address r))
      (Results.lookup begun (address r))) :
    InStep R (fun w => ∀ d project plan, w = .ok (.planned d project plan) → d = address r)
      (s.prepare begun r : Serving σ Prospect).run
      (s.prepare begun r : Serving τ Prospect).run := by
  apply InStep.run_bind (.ofLogged _) _ fun _ _ => nofun
  intro demand _
  apply InStep.run_bind (hlookup.bind fun _ _ => .pure (Q := fun _ => True) trivial) _
    fun _ _ => nofun
  intro found _
  cases found with
  | some report => exact (InStep.run_note _ _ _).run_bind (fun _ _ => .pure nofun) fun _ _ => nofun
  | none =>
    apply (InStep.run_note _ _ _).run_bind _ fun _ _ => nofun
    intro _ _
    apply InStep.run_bind (.ofLogged _) _ fun _ _ => nofun
    intro plan _
    apply InStep.pure
    rintro d project plan' h
    cases h
    rfl

/-- Answering a request goes in step, also where the relation widens before the report is kept. -/
theorem optimize_carries (hlookup : InStep R (fun _ => True) (Results.lookup begun (address r))
      (Results.lookup begun (address r))) (hwiden : ∀ m n, R m n → R' m n)
    (hstore : ∀ report, InStep R' (fun _ => True)
      (Results.store ended s.ttl (address r) report)
      (Results.store ended s.ttl (address r) report)) :
    Carries R R' (fun _ => True) (s.optimize begun ended r : Serving σ Report).run
      (s.optimize begun ended r : Serving τ Report).run := by
  refine ((prepare_inStep hlookup).carries.weaken hwiden).run_bind (fun prospect hprospect => ?_)
    (fun _ _ => trivial) fun _ _ => id
  refine (InStep.bind (Q := fun _ => True) ?_ fun _ _ => .pure trivial).carries
  cases prospect with
  | kept report => exact .pure trivial
  | planned d project plan =>
    obtain rfl := hprospect d project plan rfl
    refine (InStep.ofLogged _).bind fun _ _ => ?_
    refine (InStep.ofLogged _).bind fun fresh _ => ?_
    exact (hstore _).bind fun _ _ => .pure trivial

/-- A call leads from related states to related ones, and gets the same answer, also where the
relation widens before the report is kept. -/
theorem serve_carries {c : Call} (hlookup : InStep R (fun _ => True)
      (Results.lookup c.begun (address c.request)) (Results.lookup c.begun (address c.request)))
    (hwiden : ∀ m n, R m n → R' m n)
    (hstore : ∀ report, InStep R' (fun _ => True)
      (Results.store c.ended s.ttl (address c.request) report)
      (Results.store c.ended s.ttl (address c.request) report)) (h : R m n) :
    R' (s.serve v c m).1 (s.serve v c n).1 ∧ (s.serve v c m).2 = (s.serve v c n).2 := by
  obtain ⟨hstate, hvalue, -⟩ := optimize_carries hlookup hwiden hstore v m n h
  exact ⟨hstate, hvalue⟩

/-- Whether looking for reports and for what is known about them, and ranking them, go in step. -/
structure Reads (R : σ → τ → Prop) (now : Moment) : Prop where
  result : ∀ d : RequestDigest, d.Proper → Results.Finds R now d.resultKey fun _ => True
  entry : ∀ d : RequestDigest, d.Proper → Results.Finds R now d.entryKey fun _ => True
  ranked : ∀ start stop : UInt64, stop.toNat < UInt64.size - 1 → InStep R (fun _ => True)
    (Backend.ranked Results.indexKey start stop : Caching σ _).run
    (Backend.ranked Results.indexKey start stop : Caching τ _).run

/-- What looking and ranking keep is kept in step with itself. -/
theorem reads_of_preserves {P : σ → Prop}
    (hget : ∀ key, Preserves P (Backend.get now key : Caching σ _).run)
    (hranked : ∀ start stop : UInt64, stop.toNat < UInt64.size - 1 →
      Preserves P (Backend.ranked Results.indexKey start stop : Caching σ _).run) :
    Reads (Same P) now where
  result _ _ := inStep_same_iff.2 fun v m h => ⟨hget _ v m h, fun _ _ _ _ => trivial⟩
  entry _ _ := inStep_same_iff.2 fun v m h => ⟨hget _ v m h, fun _ _ _ _ => trivial⟩
  ranked _ _ hstop := (hranked _ _ hstop).inStep

namespace Reads

theorem lookup {d : RequestDigest} (h : Reads R now) (hd : d.Proper) :
    InStep R (fun _ => True) (Results.lookup now d) (Results.lookup now d) := by
  rw [Results.lookup_eq_fetch, Results.lookup_eq_fetch]
  exact (Results.fetch_inStep (h.result d hd) _ _).mono fun _ _ => trivial

theorem entryOf? {hex : String} {d : RequestDigest} (h : Reads R now)
    (hhex : RequestDigest.ofHex? hex = some d) : InStep R (fun found => ∀ e, found = some e → True)
      (Results.entryOf? now d) (Results.entryOf? now d) := by
  have hd := RequestDigest.proper_of_ofHex? hhex
  exact (Results.entryOf?_inStep (h.entry d hd) (h.result d hd)).mono fun _ _ _ _ => trivial

theorem cached {hex : String} (h : Reads R now) :
    InStep R (fun _ => True) (Service.cached now hex) (Service.cached now hex) := by
  unfold Service.cached
  cases hhex : RequestDigest.ofHex? hex with
  | none => exact .pure trivial
  | some d => exact (h.entryOf? hhex).mono fun _ _ => trivial

theorem recent {offset limit : UInt64} (h : Reads R now) :
    InStep R (fun _ => True) (Service.recent now offset limit)
      (Service.recent now offset limit) := by
  have hrecent : InStep R (fun es => ∀ e ∈ es, True) (Results.recent now offset limit)
      (Results.recent now offset limit) :=
    Results.recent_inStep (fun hex d => h.entryOf?) h.ranked
  exact hrecent.mono fun _ _ => trivial

end Reads

/-- A visit leads from related states to related ones, and gets the same reply, also where the
relation widens before a report is kept. -/
theorem visit_carries (hreads : Reads R x.begun) (hwiden : ∀ m n, R m n → R' m n)
    (hstore : ∀ c, x = .optimize c → ∀ report, InStep R' (fun _ => True)
      (Results.store c.ended s.ttl (address c.request) report)
      (Results.store c.ended s.ttl (address c.request) report)) (h : R m n) :
    R' (s.visit v m x).1 (s.visit v n x).1 ∧ (s.visit v m x).2 = (s.visit v n x).2 := by
  cases x with
  | optimize c =>
    have hlookup := hreads.lookup (proper_address c.request)
    obtain ⟨hstate, hanswer⟩ := serve_carries (v := v) hlookup hwiden (hstore c rfl) h
    exact ⟨hstate, congrArg Reply.answer hanswer⟩
  | cached now hex =>
    obtain ⟨hstate, hvalue, -⟩ := hreads.cached v m n h
    exact ⟨hwiden _ _ hstate, congrArg Reply.entry hvalue⟩
  | recent now offset limit =>
    obtain ⟨hstate, hvalue, -⟩ := hreads.recent v m n h
    exact ⟨hwiden _ _ hstate, congrArg Reply.entries hvalue⟩

/-- A visit leads from related states to related ones, and gets the same reply. -/
theorem visit_inStep (hreads : Reads R x.begun)
    (hstore : ∀ c, x = .optimize c → ∀ report, InStep R (fun _ => True)
      (Results.store c.ended s.ttl (address c.request) report)
      (Results.store c.ended s.ttl (address c.request) report)) (h : R m n) :
    R (s.visit v m x).1 (s.visit v n x).1 ∧ (s.visit v m x).2 = (s.visit v n x).2 :=
  visit_carries hreads (fun _ _ => id) hstore h

/-- What looking, ranking and keeping reports preserve is there after a visit. -/
theorem visit_preserves {P : σ → Prop}
    (hget : ∀ key, Preserves P (Backend.get x.begun key : Caching σ _).run)
    (hranked : ∀ start stop : UInt64, stop.toNat < UInt64.size - 1 →
      Preserves P (Backend.ranked Results.indexKey start stop : Caching σ _).run)
    (hstore : ∀ c, x = .optimize c → ∀ report,
      Preserves P (Results.store c.ended s.ttl (address c.request) report)) (h : P m) :
    P (s.visit v m x).1 :=
  (visit_inStep (reads_of_preserves hget hranked)
    (fun c hc report => (hstore c hc report).inStep) ⟨rfl, h⟩).1.2

end Service

end Guillotine
