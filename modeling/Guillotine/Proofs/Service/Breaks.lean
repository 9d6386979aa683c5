import Guillotine.Proofs.Service.Recall

/-! What a cache in memory can do to a service. A report whose time to live ends beyond the last
point in time cannot be kept: that call ends in a fault, and the texts in memory are blocked from
then on. There is no other way to block them, and none at all to block the sets. Every other request
is answered with the report that is packed for it or that was an answer before, and once the texts
are blocked every request is packed anew. Questions fault only where an offset and a limit add up to
more than 64 bits can hold. -/
namespace Guillotine

open Run

/-! ### Memory -/

namespace MemoryStore

variable {m : MemoryStore} {now : Moment} {ttl : UInt64} {key text : String} {stop : UInt64}

theorem set_setsBlocked : (m.set now key text ttl).1.setsBlocked = m.setsBlocked := by
  unfold set
  generalize deadline now ttl = o
  split
  · rfl
  · cases o <;> rfl

theorem insertScored_setsBlocked (set : String) (score : Float) (member : String) :
    (m.insertScored set score member).1.setsBlocked = m.setsBlocked := by
  unfold insertScored
  split <;> rfl

theorem removeScored_setsBlocked (set : String) (low high : Float) :
    (m.removeScored set low high).1.setsBlocked = m.setsBlocked := by
  unfold removeScored
  split
  · rfl
  · split <;> rfl

/-- Ranks that can be counted are listed without a fault, and nothing is changed. -/
theorem ranked_returns (m : MemoryStore) (set : String) (start : UInt64)
    (hstop : stop.toNat < UInt64.size - 1) :
    (m.ranked set start stop).1 = m ∧ ∃ r, (m.ranked set start stop).2 = .ok r := by
  unfold ranked
  split
  · exact ⟨rfl, _, rfl⟩
  · split
    · exact ⟨rfl, _, rfl⟩
    · split
      · exact ⟨rfl, _, rfl⟩
      · rw [ScoredSet.slice, if_pos (by omega)]
        exact ⟨rfl, _, rfl⟩

/-- Where the texts are blocked already, or the time to live ends in time, putting a text blocks
nothing. -/
theorem set_valuesBlocked (h : m.valuesBlocked = true ∨ ∃ limit, deadline now ttl = .ok limit) :
    (m.set now key text ttl).1.valuesBlocked = m.valuesBlocked := by
  unfold set
  split
  · rfl
  next hopen =>
    obtain ⟨limit, hlimit⟩ := h.resolve_left hopen
    rw [hlimit]

end MemoryStore

namespace Service

variable {s : Service} {v : Verbosity} {past : History} {x : Visit} {c : Call} {m : MemoryStore}
  {now : Moment} {r : Report}

/-! ### What a visit blocks -/

/-- No visit blocks the sets. -/
theorem visit_setsBlocked (h : m.setsBlocked = false) :
    (s.visit v m x).1.setsBlocked = false := by
  refine visit_preserves (P := fun m : MemoryStore => m.setsBlocked = false)
    (fun _ _ _ h => MemoryStore.get_sets.2.trans h) ?_ (fun c _ report => ?_) h
  · intro start stop hstop _ m h
    show (m.ranked _ start stop).1.setsBlocked = false
    rwa [(m.ranked_returns _ start hstop).1]
  · refine Results.composed_store (composable_preserves _).congruence ?_ ?_ ?_ ?_
    · exact fun _ _ h => MemoryStore.set_setsBlocked.trans h
    · exact fun _ _ h => (MemoryStore.removeScored_setsBlocked _ _ _).trans h
    · exact fun _ _ h => (MemoryStore.insertScored_setsBlocked _ _ _).trans h
    · exact fun _ _ h => MemoryStore.set_setsBlocked.trans h

/-- Where the texts are blocked already, or the time to live ends in time, a visit does not block
them. -/
theorem visit_valuesBlocked (h : m.valuesBlocked = true ∨
      ∀ c, x = .optimize c → ∃ limit, MemoryStore.deadline c.ended s.ttl = .ok limit) :
    (s.visit v m x).1.valuesBlocked = m.valuesBlocked := by
  generalize hb : m.valuesBlocked = b at h ⊢
  refine visit_preserves (P := fun m : MemoryStore => m.valuesBlocked = b)
    (fun _ _ _ hm => MemoryStore.get_valuesBlocked.trans hm)
    (fun _ _ _ _ m hm => (MemoryStore.ranked_values m _ _ _).2.trans hm) (fun c hc report => ?_) hb
  have hset : ∀ key text : String, Preserves (fun m : MemoryStore => m.valuesBlocked = b)
      (Backend.set c.ended key text s.ttl : Caching MemoryStore Unit).run := fun _ _ _ m hm =>
    (MemoryStore.set_valuesBlocked (h.imp hm.trans fun hends => hends c hc)).trans hm
  refine Results.composed_store (composable_preserves _).congruence ?_ ?_ ?_ ?_
  · exact hset _ _
  · exact fun _ m hm => (MemoryStore.removeScored_values m _ _ _).2.trans hm
  · exact fun _ m hm => (MemoryStore.insertScored_values m _ _ _).2.trans hm
  · exact hset _ _

/-! ### Questions -/

theorem faultsOnly_get (key : String) : FaultsOnly (fun _ => False)
    (Results.attempt (Backend.get now key) : Run MemoryStore (Except CacheError (Option String))) :=
  fun _ _ _ h => nomatch h

/-- The entry under a digest is looked up without a fault. -/
theorem cached_returns (v : Verbosity) (m : MemoryStore) (now : Moment) (hex : String) :
    ∃ e, (Service.cached now hex v m).value = .ok e := by
  have hfaults : FaultsOnly (fun _ => False) (Service.cached now hex : Run MemoryStore _) := by
    unfold Service.cached
    cases RequestDigest.ofHex? hex with
    | none => exact (composable_faultsOnly _).pure none
    | some d => exact Results.composed_readEntry (composable_faultsOnly _) faultsOnly_get
  cases hvalue : (Service.cached now hex v m).value with
  | ok e => exact ⟨e, rfl⟩
  | error f => exact absurd (hfaults v m f hvalue) id

/-- Entries are listed without a fault, if the ranks that are asked for can be counted. -/
theorem recent_returns (v : Verbosity) (m : MemoryStore) (now : Moment) {offset limit : UInt64}
    (hsum : limit = 0 ∨ offset.toNat + limit.toNat < UInt64.size) :
    ∃ es, (Service.recent now offset limit v m).value = .ok es := by
  have hranked : ∀ start stop : UInt64, stop.toNat < UInt64.size - 1 →
      FaultsOnly (fun _ => False) (Results.attempt (Backend.ranked Results.indexKey start stop) :
        Run MemoryStore (Except CacheError (List String))) := by
    intro start stop hstop _ m f hf
    obtain ⟨-, r, hr⟩ := m.ranked_returns Results.indexKey start hstop
    cases hr.symm.trans hf
  cases hvalue : (Service.recent now offset limit v m).value with
  | ok es => exact ⟨es, rfl⟩
  | error f =>
    have hfaults : FaultsOnly (fun _ => False)
        (Service.recent now offset limit : Run MemoryStore (List Entry)) :=
      Results.composed_recent (composable_faultsOnly _) hsum faultsOnly_get hranked
    exact absurd (hfaults v m f hvalue) id

theorem recent_overflow {offset limit : UInt64} (hlimit : limit ≠ 0)
    (hsum : UInt64.size ≤ offset.toNat + limit.toNat) :
    (Service.recent now offset limit v m).value = .error .sumOverflow := by
  unfold Service.recent Results.recent
  rw [if_neg hlimit, if_pos hsum]
  rfl

/-- Where the texts are blocked, none is found. -/
theorem finds_blocked (key : String) : Results.Finds
    (Same fun m : MemoryStore => m.valuesBlocked = true) now key fun _ => False := by
  apply inStep_same_iff.2
  refine fun v m h => ⟨MemoryStore.get_valuesBlocked.trans h, ?_⟩
  rintro outcome hvalue text rfl
  have hget : (m.get now key).2 = .ok (some text) := Except.ok.inj hvalue
  simp [MemoryStore.get, h] at hget

theorem entryOf?_blocked (d : RequestDigest) :
    InStep (Same fun m : MemoryStore => m.valuesBlocked = true)
      (fun found => ∀ e, found = some e → False) (Results.entryOf? now d)
      (Results.entryOf? now d) :=
  (Results.entryOf?_inStep (finds_blocked _) (finds_blocked _)).mono fun _ hfound e he =>
    (hfound e he).elim (fun ⟨_, h, _⟩ => h) fun ⟨_, _, h, _⟩ => h

theorem cached_blocked {hex : String} {e : Option Entry} (h : m.valuesBlocked = true)
    (hvalue : (Service.cached now hex v m).value = .ok e) : e = none := by
  have hstep : InStep (Same fun m : MemoryStore => m.valuesBlocked = true)
      (fun found => ∀ e, found = some e → False) (Service.cached now hex)
      (Service.cached now hex) := by
    unfold Service.cached
    cases RequestDigest.ofHex? hex with
    | none => exact .pure nofun
    | some d => exact entryOf?_blocked d
  exact Option.eq_none_iff_forall_ne_some.2 ((inStep_same_iff.1 hstep v m h).2 e hvalue)

theorem recent_blocked {offset limit : UInt64} {es : List Entry} (h : m.valuesBlocked = true)
    (hvalue : (Service.recent now offset limit v m).value = .ok es) : es = [] := by
  have hstep : InStep (Same fun m : MemoryStore => m.valuesBlocked = true)
      (fun es => ∀ e ∈ es, False) (Service.recent now offset limit)
      (Service.recent now offset limit) :=
    Results.recent_inStep (fun _ d _ => entryOf?_blocked d) fun _ _ _ =>
      Preserves.inStep fun _ _ h => (MemoryStore.ranked_values _ _ _ _).2.trans h
  exact List.eq_nil_iff_forall_not_mem.2 ((inStep_same_iff.1 hstep v m h).2 es hvalue)

/-! ### Requests -/

/-- The reply to a call, packed anew, if it can be kept where it is a report. -/
def Call.kept (c : Call) (s : Service) (v : Verbosity) : Answer :=
  match c.reply s v with
  | .ok (.ok report) => (MemoryStore.deadline c.ended s.ttl).map fun _ => .ok report
  | reply => reply

/-- Whether a visit ends in a fault since the report that was packed in it cannot be kept. -/
def Breaks (s : Service) (v : Verbosity) : Visit → Reply → Prop
  | .optimize c, .answer a => (∃ report, c.reply s v = .ok (.ok report)) ∧ c.Overflows s a
  | _, _ => False

/-- A visit that gets an answer does not break. -/
theorem not_breaks (a : Except Rejection Report) :
    ¬ Breaks s v (.optimize c) (.answer (.ok a)) := by
  rintro ⟨-, -, hfault⟩
  cases hfault

/-- Where nothing is held and the texts are not blocked, the reply is the answer if it can be kept,
and else the texts are blocked. -/
theorem serve_unblocked (hcheck : c.request.ordered.check = .ok ()) (hheld : c.held? m = none)
    (h : m.valuesBlocked = false) : (s.serve v c m).2 = c.kept s v ∧
      ((s.serve v c m).1.valuesBlocked = true ↔
        Breaks s v (.optimize c) (.answer (s.serve v c m).2)) := by
  have hlooked : (c.looked m).valuesBlocked = false := looked_unblocked h
  -- A report is the only reply that is kept, so without an end in time the other two are answers.
  cases hdeadline : MemoryStore.deadline c.ended s.ttl with
  | ok limit =>
    have hstate : (s.visit v m (.optimize c)).1.valuesBlocked = m.valuesBlocked := by
      refine visit_valuesBlocked (.inr fun d hd => ⟨limit, ?_⟩)
      obtain rfl := Visit.optimize.inj hd
      exact hdeadline
    refine ⟨?_, iff_of_false (Bool.eq_false_iff.1 (hstate.trans h)) fun hbreaks => ?_⟩
    · rw [serve_missed_reply hcheck hheld hdeadline, Call.kept, hdeadline]
      rcases c.reply s v with f | e | report <;> rfl
    · cases hdeadline.symm.trans hbreaks.2.1
  | error f =>
    have hnothing (hreply : ∀ report, c.reply s v ≠ .ok (.ok report)) (a : Answer) :
        ¬ Breaks s v (.optimize c) (.answer a) :=
      fun ⟨⟨report, hreport⟩, _⟩ => hreply report hreport
    rcases hreply : c.reply s v with f' | e | report
    · rw [serve_missed hcheck hheld, Call.kept, hreply]
      exact ⟨rfl, iff_of_false (Bool.eq_false_iff.1 hlooked) (hnothing (by simp [hreply]) _)⟩
    · rw [serve_missed hcheck hheld, Call.kept, hreply]
      exact ⟨rfl, iff_of_false (Bool.eq_false_iff.1 hlooked) (hnothing (by simp [hreply]) _)⟩
    · obtain ⟨hblocked, hfault⟩ := serve_overflow hcheck hheld h hreply hdeadline
      obtain rfl := MemoryStore.eq_deadlineOverflow hdeadline
      rw [hfault]
      refine ⟨?_, iff_of_true hblocked ⟨⟨report, hreply⟩, hdeadline, rfl⟩⟩
      rw [Call.kept, hreply, hdeadline]
      rfl

/-- A report that is held was a fresh answer to a request with the same digest. -/
theorem held_fresh (h : Records past m) (hheld : c.held? m = some r) :
    Fresh past (address c.request).hex r := by
  obtain ⟨t, found, hlookup, -, hfresh⟩ :=
    lookup_records (v := none) c.begun (proper_address c.request) h
  have hfound := (Prod.mk.inj (lookup_outcome.symm.trans hlookup)).2
  exact hfresh r ((Except.ok.inj hfound).symm.trans hheld)

/-! ### Histories -/

/-- Whether a visit of a history could not keep its report. -/
def Broken (s : Service) (v : Verbosity) (past : History) : Prop := ∃ p ∈ past, Breaks s v p.1 p.2

/-- What a visit gets after a history. -/
inductive Gets (s : Service) (v : Verbosity) (past : History) : Visit → Reply → Prop
  /-- A request that fails its check is turned down. -/
  | rejected {c : Call} {e : Rejection} (hcheck : c.request.ordered.check = .error e) :
    Gets s v past (.optimize c) (.answer (.ok (.error e)))
  /-- A report that was packed for the same digest before is given again. -/
  | again {c : Call} {r : Report} (hcheck : c.request.ordered.check = .ok ())
    (hbroken : ¬ Broken s v past) (hfresh : Fresh past (address c.request).hex r) :
    Gets s v past (.optimize c)
      (.answer (.ok (.ok (answerKept r (address c.request) c.request.project))))
  /-- What is packed anew is kept, and is the answer unless its time to live does not end. -/
  | kept {c : Call} (hcheck : c.request.ordered.check = .ok ()) (hbroken : ¬ Broken s v past) :
    Gets s v past (.optimize c) (.answer (c.kept s v))
  /-- After a break the reply is the answer, and nothing is kept. -/
  | anew {c : Call} (hcheck : c.request.ordered.check = .ok ()) (hbroken : Broken s v past) :
    Gets s v past (.optimize c) (.answer (c.reply s v))
  /-- Looking for an entry never faults. -/
  | found {now : Moment} {hex : String} {e : Option Entry} (hnone : Broken s v past → e = none) :
    Gets s v past (.cached now hex) (.entry (.ok e))
  | listed {now : Moment} {offset limit : UInt64} {es : List Entry}
    (hsum : limit = 0 ∨ offset.toNat + limit.toNat < UInt64.size)
    (hnone : Broken s v past → es = []) :
    Gets s v past (.recent now offset limit) (.entries (.ok es))
  /-- The only fault of a question: offset and limit have no sum. -/
  | uncounted {now : Moment} {offset limit : UInt64} (hlimit : limit ≠ 0)
    (hsum : UInt64.size ≤ offset.toNat + limit.toNat) :
    Gets s v past (.recent now offset limit) (.entries (.error .sumOverflow))

/-- Whether a history accounts for what a memory keeps, and for what is blocked in it. -/
structure Accounted (s : Service) (v : Verbosity) (past : History) (m : MemoryStore) : Prop where
  sets : m.setsBlocked = false
  texts : m.valuesBlocked = true ↔ Broken s v past
  records : Records past m

theorem accounted_empty : Accounted s v [] .empty where
  sets := rfl
  texts := by simp [Broken, MemoryStore.empty]
  records _ _ _ h := absurd h MemoryStore.not_has_empty

theorem Accounted.not_broken (h : Accounted s v past m) (hopen : m.valuesBlocked = false) :
    ¬ Broken s v past := by
  rw [← h.texts, hopen]
  exact nofun

theorem broken_append_iff {reply : Reply} :
    Broken s v (past ++ [(x, reply)]) ↔ Broken s v past ∨ Breaks s v x reply := by
  simp [Broken, or_and_right, exists_or]

/-- A call blocks the texts just if it breaks, and gets what its history says. -/
theorem serve_gets (h : Accounted s v past m) :
    ((s.serve v c m).1.valuesBlocked = true ↔
        m.valuesBlocked = true ∨ Breaks s v (.optimize c) (.answer (s.serve v c m).2)) ∧
      Gets s v past (.optimize c) (.answer (s.serve v c m).2) := by
  cases hcheck : c.request.ordered.check with
  | error e =>
    rw [serve_rejected hcheck]
    exact ⟨(or_iff_left (not_breaks _)).symm, .rejected hcheck⟩
  | ok u =>
    cases hopen : m.valuesBlocked with
    | true =>
      have hblocked : (s.visit v m (.optimize c)).1.valuesBlocked = m.valuesBlocked :=
        visit_valuesBlocked (.inl hopen)
      rw [serve_blocked hcheck hopen]
      exact ⟨⟨fun _ => .inl rfl, fun _ => hblocked.trans hopen⟩, .anew hcheck (h.texts.1 hopen)⟩
    | false =>
      cases hheld : c.held? m with
      | none =>
        obtain ⟨hanswer, hblocks⟩ := serve_unblocked (s := s) (v := v) hcheck hheld hopen
        refine ⟨hblocks.trans (by simp), ?_⟩
        rw [hanswer]
        exact .kept hcheck (h.not_broken hopen)
      | some report =>
        have hlooked : (c.looked m).valuesBlocked = false := looked_unblocked hopen
        rw [serve_held hcheck hheld, hlooked]
        refine ⟨(or_iff_left (not_breaks _)).symm, ?_⟩
        exact .again hcheck (h.not_broken hopen) (held_fresh h.records hheld)

/-- A question blocks nothing, and gets what its history says. -/
theorem question_gets (h : Accounted s v past m) (hx : ∀ c, x ≠ .optimize c) :
    ((s.visit v m x).1.valuesBlocked = true ↔
        m.valuesBlocked = true ∨ Breaks s v x (s.visit v m x).2) ∧
      Gets s v past x (s.visit v m x).2 := by
  have hsame : (s.visit v m x).1.valuesBlocked = m.valuesBlocked :=
    visit_valuesBlocked (.inr fun c hc => absurd hc (hx c))
  rw [hsame]
  cases x with
  | optimize c => exact absurd rfl (hx c)
  | cached now hex =>
    refine ⟨(or_iff_left id).symm, ?_⟩
    obtain ⟨e, he⟩ := cached_returns v m now hex
    show Gets s v past _ (.entry (Service.cached now hex v m).value)
    rw [he]
    exact .found fun hbroken => cached_blocked (h.texts.2 hbroken) he
  | recent now offset limit =>
    refine ⟨(or_iff_left id).symm, ?_⟩
    show Gets s v past _ (.entries (Service.recent now offset limit v m).value)
    by_cases hsum : limit = 0 ∨ offset.toNat + limit.toNat < UInt64.size
    · obtain ⟨es, hes⟩ := recent_returns v m now hsum
      rw [hes]
      exact .listed hsum fun hbroken => recent_blocked (h.texts.2 hbroken) hes
    · rw [not_or, Nat.not_lt] at hsum
      rw [recent_overflow hsum.1 hsum.2]
      exact .uncounted hsum.1 hsum.2

/-- A visit gets what its history says, and with it the history accounts for the memory again. -/
theorem visit_accounted (h : Accounted s v past m) :
    Accounted s v (past ++ [(x, (s.visit v m x).2)]) (s.visit v m x).1 ∧
      Gets s v past x (s.visit v m x).2 := by
  have hvisit : ((s.visit v m x).1.valuesBlocked = true ↔
      m.valuesBlocked = true ∨ Breaks s v x (s.visit v m x).2) ∧
        Gets s v past x (s.visit v m x).2 := by
    cases x with
    | optimize c => exact serve_gets h
    | cached now hex => exact question_gets h nofun
    | recent now offset limit => exact question_gets h nofun
  refine ⟨⟨visit_setsBlocked h.sets, ?_, (visit_recalls h.records).1⟩, hvisit.2⟩
  rw [broken_append_iff, ← h.texts]
  exact hvisit.1

/-- A history accounts for the memory that its visits leave behind. -/
theorem after_accounted (xs : List Visit) (h : Accounted s v past m) :
    Accounted s v (past ++ s.history v xs m) (s.after v xs m) := by
  induction xs generalizing past m with
  | nil => rwa [history, List.append_nil]
  | cons x xs ih =>
    rw [history, List.append_cons]
    exact ih (visit_accounted h).1

/-- Whatever a service was asked since its memory was empty, the sets are not blocked, and the texts
are just if a report could not be kept. The next visit gets what its history says. -/
theorem visit_gets (s : Service) (v : Verbosity) (xs : List Visit) (x : Visit) :
    (s.after v xs MemoryStore.empty).setsBlocked = false ∧
      ((s.after v xs MemoryStore.empty).valuesBlocked = true ↔
        Broken s v (s.history v xs MemoryStore.empty)) ∧
      Gets s v (s.history v xs MemoryStore.empty) x
        (s.visit v (s.after v xs MemoryStore.empty) x).2 := by
  have h := after_accounted xs (accounted_empty (s := s) (v := v))
  rw [List.nil_append] at h
  exact ⟨h.sets, h.texts, (visit_accounted h).2⟩

/-- A report that is packed without a fault is not the answer if it cannot be kept, and the texts
are blocked. A question about what is kept faults if offset and limit have no sum. -/
theorem visit_faults :
    (sampleCall none).reply (sampleService 18446744073709551615) none =
        .ok (.ok (sampleReport none)) ∧
      ((sampleService 18446744073709551615).visit none MemoryStore.empty
        (.optimize (sampleCall none))).2 = .answer (.error .deadlineOverflow) ∧
      ((sampleService 18446744073709551615).visit none MemoryStore.empty
        (.optimize (sampleCall none))).1.valuesBlocked = true ∧
      ((sampleService 60).visit none MemoryStore.empty
        (.recent ⟨⟨0⟩, 0⟩ 1 18446744073709551615)).2 = .entries (.error .sumOverflow) := by
  obtain ⟨hblocked, hfault⟩ := serve_overflow (s := sampleService 18446744073709551615) (v := none)
    (m := MemoryStore.empty) (check_sample none) rfl rfl (reply_sample _ none)
    (deadline_sample_overflow _)
  exact ⟨reply_sample _ none, congrArg Reply.answer hfault, hblocked, rfl⟩

end Service

end Guillotine
