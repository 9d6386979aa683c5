import Guillotine.Proofs.Service.Calls

/-! A service with a memory of results answers like one that packs every request anew. All that its
memory holds are texts of replies that were packed for requests of the history. So a report that is
found under the address of a request was packed for an earlier request with the same address. If
different canonical texts of the history have different addresses, that request had the same
canonical form, and what was packed for it differs in absent labels only. -/
namespace Guillotine

open List (Forall₂)

namespace Service

/-- The answers to some calls, one after the other. -/
def answers {σ : Type} [Backend σ] (s : Service) (v : Verbosity) : List Call → σ → List Answer
  | [], _ => []
  | c :: cs, m => (s.serve v c m).2 :: answers s v cs (s.serve v c m).1

/-- The answer of a service that has not been called before. -/
def freshAnswer (s : Service) (v : Verbosity) (c : Call) : Answer :=
  (s.serve v c MemoryStore.empty).2

/-- Two answers are the same, but for whether a report was kept, how long packing took, and absent
labels, which count as empty ones. -/
def Answer.Alike : Answer → Answer → Prop := Agree (Agree (Report.Alike SameTag))

/-- Two answers are the same, but for whether a report was kept and how long packing took. -/
def Answer.Same : Answer → Answer → Prop :=
  Agree (Agree fun r q =>
    { r with cached := q.cached, summary := { r.summary with time := q.summary.time } } = q)

variable {s : Service} {v : Verbosity} {m : MemoryStore} {rs : List Request} {r q : Request}
  {c d : Call} {report : Report} {T : Tag → Tag → Prop} {past calls : List Call}

/-! ### Requests of one canonical form -/

theorem reply_alike (s : Service) (h : r.canonical = q.canonical) (hitems : r.ItemsAlike T q)
    (d : RequestDigest) (elapsed elapsed' : Duration) :
    Packing.Alike (fun a b => (a.summary.project = r.project ∧ a.digest = d.hex) ∧
        (answerKept a d q.project).Alike T b)
      (s.reply d r.ordered.toDemand elapsed) (s.reply d q.ordered.toDemand elapsed') := by
  have hsaws := Request.saw_eq h
  have hsaw : r.ordered.toDemand.saw = q.ordered.toDemand.saw := hsaws
  have hcatalog := Packer.find?_alike (Request.materials_alike h)
  unfold reply plan
  rw [hsaw]
  apply (pack_alike s.settings hcatalog _ (Request.pieces_alike h) hitems).bind
  intro p p' hp
  apply Packing.Alike.lift
  apply (Plan.announce_alike hp elapsed elapsed').bind
  intro _ _ _
  have hreport := Plan.report_alike hp r.project q.project elapsed elapsed' s.settings.reusableSide
  apply (Logged.Alike.lift hreport).bind
  rintro a b ⟨hproject, h⟩
  exact .pure ⟨⟨hproject, rfl⟩, h.project, h.sheets, h.totalCost, h.wastePercentage, h.costs,
    h.boards, h.unplaced, rfl⟩

/-! ### The memory of a service -/

/-- Whether a text is the one of a reply that was packed for a request with some address. -/
def IsReply (s : Service) (v : Verbosity) (rs : List Request) (d : RequestDigest) (text : String) :
    Prop :=
  ∃ r ∈ rs, r.ordered.check = .ok () ∧ address r = d ∧ ∃ elapsed report,
    ((s.reply d r.ordered.toDemand elapsed).run.record v).2 = .ok (.ok report) ∧
      text = write report

/-- Whether all results in a memory are replies that were packed for some requests. -/
def Remembers (s : Service) (v : Verbosity) (rs : List Request) : MemoryStore → Prop :=
  MemoryStore.AllTexts fun key text =>
    ∀ d : RequestDigest, key = d.resultKey → IsReply s v rs d text

theorem remembers_empty : Remembers s v rs MemoryStore.empty := MemoryStore.allTexts_empty

theorem Remembers.append (h : Remembers s v rs m) (more : List Request) :
    Remembers s v (rs ++ more) m := by
  intro e he d hd
  obtain ⟨r, hr, hreply⟩ := h e he d hd
  exact ⟨r, List.mem_append_left _ hr, hreply⟩

/-- A call adds replies to its request only. -/
theorem serve_remembers (h : Remembers s v rs m) :
    Remembers s v (rs ++ [c.request]) (s.serve v c m).1 := by
  replace h := h.append [c.request]
  have hlooked : Remembers s v (rs ++ [c.request]) (c.looked m) := MemoryStore.get_allTexts h
  cases hcheck : c.request.ordered.check with
  | error e =>
    rw [serve_rejected hcheck]
    exact h
  | ok u =>
    cases hheld : c.held? m with
    | some report =>
      rw [serve_held hcheck hheld]
      exact hlooked
    | none =>
      rw [serve_missed hcheck hheld]
      rcases hreply : c.reply s v with f | e | report
      · exact hlooked
      · exact hlooked
      · have hresult : ∀ d : RequestDigest, (address c.request).resultKey = d.resultKey →
            IsReply s v (rs ++ [c.request]) d (write report) := by
          intro d hd
          obtain rfl := RequestDigest.resultKey_inj hd
          exact ⟨c.request, by simp, hcheck, rfl, _, report, hreply, rfl⟩
        exact Results.preserves_store hresult
          (fun d hd => absurd hd (RequestDigest.entryKey_ne_resultKey _ d)) v _ hlooked

/-- A report that is held is one that was packed for a request with the same address. -/
theorem held_reply (h : Remembers s v rs m) (hheld : c.held? m = some report) :
    ∃ r ∈ rs, r.ordered.check = .ok () ∧ address r = address c.request ∧ ∃ elapsed,
      ((s.reply (address c.request) r.ordered.toDemand elapsed).run.record v).2 =
        .ok (.ok report) := by
  obtain ⟨text, htext, hread⟩ := Option.bind_eq_some_iff.1 hheld
  obtain ⟨r, hr, hcheck, haddress, elapsed, packed, hpacked, rfl⟩ :=
    MemoryStore.find?_text h htext _ rfl
  obtain rfl := eq_of_read?_write hread
  exact ⟨r, hr, hcheck, haddress, elapsed, hpacked⟩

/-! ### Answers -/

/-- The canonical texts of some requests. -/
def texts (rs : List Request) : Set String := {t | ∃ r ∈ rs, t = r.canonical.text}

theorem texts_mono {qs : List Request} (h : ∀ r ∈ rs, r ∈ qs) : texts rs ⊆ texts qs :=
  fun _ ⟨r, hr, ht⟩ => ⟨r, h r hr, ht⟩

/-- Requests with the same address have the same canonical form, if different canonical texts have
different addresses. -/
theorem canonical_eq_of_address (hsha : Set.InjOn Sha256.hex (texts rs)) (hr : r ∈ rs)
    (hq : q ∈ rs) (hcheck : r.ordered.check = .ok ()) (h : address r = address q) :
    r.canonical = q.canonical := by
  have hhex : Sha256.hex r.canonical.text = Sha256.hex q.canonical.text := by
    have := congrArg RequestDigest.hex h
    simpa only [address, RequestDigest.ofRequest, RequestDigest.ofCanonical,
      Request.canonical_ordered] using this
  exact Request.canonical_eq_of_text hcheck (hsha ⟨r, hr, rfl⟩ ⟨q, hq, rfl⟩ hhex)

/-- Replies to requests of one canonical form, for projects of one name, are alike. -/
theorem Call.reply_alike (hproject : c.request.project = d.request.project)
    (hcanonical : c.request.canonical = d.request.canonical)
    (hitems : c.request.ItemsAlike T d.request) :
    Agree (Agree (Report.Alike T)) (c.reply s v) (d.reply s v) := by
  have haddress : address d.request = address c.request := by
    simp only [address, RequestDigest.ofRequest, Request.canonical_ordered, hcanonical]
  unfold reply
  rw [haddress]
  have hreply := Service.reply_alike s hcanonical hitems (address c.request)
    (c.ended.since c.begun) (d.ended.since d.begun)
  apply (hreply.record v).mono
  intro a b hab
  apply hab.mono
  rintro a b ⟨⟨hname, hdigest⟩, h⟩
  exact ⟨(hname.trans hproject).trans h.project, h.sheets, h.totalCost, h.wastePercentage, h.costs,
    h.boards, h.unplaced, hdigest.trans h.digest⟩

section OneCall

variable (hsha : Set.InjOn Sha256.hex (texts (c.request :: rs))) (h : Remembers s v rs m)
  (hitems : ∀ r ∈ rs, r.canonical = c.request.canonical → r.ItemsAlike T c.request)
  (hd : d.request = c.request)
include hsha h hitems hd

/-- A report that is held for a call is like the reply to it, packed anew. -/
theorem serve_held_alike (hcheck : c.request.ordered.check = .ok ())
    (hheld : c.held? m = some report) :
    Agree (Agree (Report.Alike T)) (s.serve v c m).2 (d.reply s v) := by
  obtain ⟨q, hq, hqcheck, haddress, elapsed, hpacked⟩ := held_reply h hheld
  have hcanonical := canonical_eq_of_address hsha (List.mem_cons_of_mem _ hq) List.mem_cons_self
    hqcheck haddress
  have hreply := (Service.reply_alike s hcanonical (hitems q hq hcanonical) (address c.request)
    elapsed (d.ended.since d.begun)).record v
  rw [hpacked] at hreply
  rw [serve_held hcheck hheld, Call.reply, hd]
  generalize ((s.reply (address c.request) c.request.ordered.toDemand
    (d.ended.since d.begun)).run.record v).2 = fresh at hreply ⊢
  cases hreply with
  | ok h =>
    cases h with
    | ok h => exact .ok (.ok h.2)

/-- One call is answered as by a service that has not been called before. -/
theorem serve_alike (hT : ∀ t, T t t) :
    Agree (Agree (Report.Alike T)) (s.serve v c m).2 (s.freshAnswer v d) ∨
      c.Overflows s (s.serve v c m).2 ∨ d.Overflows s (s.freshAnswer v d) := by
  cases hcheck : c.request.ordered.check with
  | error e =>
    left
    rw [freshAnswer, serve_rejected hcheck, serve_rejected (hd ▸ hcheck)]
    exact .ok (.error e)
  | ok u =>
    have hdcheck : d.request.ordered.check = .ok () := hd ▸ hcheck
    rcases serve_missed_answer hdcheck (rfl : d.held? .empty = none) with hfresh | hfresh
    · rw [freshAnswer, hfresh]
      cases hheld : c.held? m with
      | none =>
        rcases serve_missed_answer hcheck hheld with hserve | hserve
        · rw [hserve]
          exact .inl (Call.reply_alike (by rw [hd]) (by rw [hd])
            (Request.itemsAlike_of_cuts hT (by rw [hd])))
        · exact .inr (.inl hserve)
      | some report => exact .inl (serve_held_alike hsha h hitems hd hcheck hheld)
    · exact .inr (.inr hfresh)

end OneCall

/-- Whether the requests of some calls that have the canonical form of a call's have its labels,
too: none of them has an empty label where it has none, or the other way round. -/
def Call.LabelledLike (c : Call) (past : List Call) : Prop :=
  ∀ b ∈ past, b.request.canonical = c.request.canonical →
    b.request.ordered.cuts = c.request.ordered.cuts

/-- An answer to a call is like the one that a service gives which has not been called before, and
the same if all calls with the same canonical form have the same labels, unless a report cannot be
kept. -/
def LikeFresh (s : Service) (v : Verbosity) (past : List Call) (c : Call) (a : Answer) : Prop :=
  ∀ d : Call, d.request = c.request →
    (Answer.Alike a (s.freshAnswer v d) ∧
      (c.LabelledLike past → Answer.Same a (s.freshAnswer v d))) ∨
    c.Overflows s a ∨ d.Overflows s (s.freshAnswer v d)

theorem serve_likeFresh
    (hsha : Set.InjOn Sha256.hex (texts (c.request :: past.map Call.request)))
    (h : Remembers s v (past.map Call.request) m) : s.LikeFresh v past c (s.serve v c m).2 := by
  intro d hd
  by_cases hover : c.Overflows s (s.serve v c m).2 ∨ d.Overflows s (s.freshAnswer v d)
  · exact .inr hover
  refine .inl ⟨?_, fun hlabels => ?_⟩
  · exact (serve_alike hsha h (fun _ _ => Request.itemsAlike_of_canonical) hd
      fun _ => ⟨rfl, rfl⟩).resolve_right hover
  · have hitems : ∀ r ∈ past.map Call.request, r.canonical = c.request.canonical →
        r.ItemsAlike Eq c.request := by
      rw [List.forall_mem_map]
      exact fun b hb hcanonical =>
        Request.itemsAlike_of_cuts (fun _ => rfl) (hlabels b hb hcanonical)
    have hsame := (serve_alike hsha h hitems hd fun _ => rfl).resolve_right hover
    exact hsame.mono fun _ _ hab => hab.mono fun _ _ => Report.Alike.eq

/-- Call after call is answered so, where those before it may have been made earlier. -/
theorem answers_likeFresh (past : List Call)
    (hsha : Set.InjOn Sha256.hex (texts ((past ++ calls).map Call.request)))
    (h : Remembers s v (past.map Call.request) m) :
    Forall₂ (fun x a => s.LikeFresh v (past ++ x.1) x.2 a) (calls.inits.zip calls)
      (s.answers v calls m) := by
  induction calls generalizing past m with
  | nil => exact .nil
  | cons c calls ih =>
    rw [List.inits_cons, List.zip_cons_cons, List.zip_map_left, answers]
    refine .cons ?_ (List.forall₂_map_left_iff.2 ?_)
    · rw [List.append_nil]
      refine serve_likeFresh (hsha.mono (texts_mono (List.forall_mem_cons.2 ⟨by simp, ?_⟩))) h
      rw [List.map_append]
      exact fun _ => List.mem_append_left _
    · have hnext : Remembers s v ((past ++ [c]).map Call.request) (s.serve v c m).1 := by
        rw [List.map_append]
        exact serve_remembers h
      have hrest := ih (past ++ [c]) (by rwa [List.append_assoc]) hnext
      refine hrest.imp fun x a hx => ?_
      rwa [List.append_assoc] at hx

/-! ### A sample history -/

def samplePanel : Material := ⟨"oak", 500, 400, 18, 12, none⟩

/-- A request for one piece that fits on no sheet. -/
def sampleRequest (label : Option String) : Request where
  project := "shelf"
  cuts := [⟨1000, 500, 1, "oak", label, true, none, 0⟩]
  materials := [samplePanel]
  saw := ⟨0, 0, 0, 0, 0⟩

def samplePlank (label : Option String) : Piece := ⟨"c1", "oak", 1000, 500, 1, true, 0, none, label⟩

def sampleItem (label : Option String) : Item := ⟨"c1", "oak", 1000, 500, true, 0, none, label⟩

def sampleCall (label : Option String) : Call := ⟨⟨⟨0⟩, 0⟩, ⟨⟨0⟩, 0⟩, sampleRequest label⟩

/-- The same request twice, with an empty label and without one. -/
def sampleCalls : List Call := [sampleCall (some ""), sampleCall none]

def sampleService (ttl : UInt64) : Service := ⟨.standard, ttl⟩

/-- The answer to the sample request. -/
def sampleReport (label : Option String) : Report where
  summary := ⟨"shelf", 0, -0.0, 0, Fixed.text 3 (Duration.toFloat ⟨0, 0⟩) ++ "s"⟩
  costs := ⟨[], -0.0⟩
  boards := []
  unplaced := [⟨"c1", "oak", 1000, 500, label⟩]
  cached := false
  digest := (address (sampleRequest label)).hex

theorem ordered_sample (label : Option String) :
    (sampleRequest label).ordered = sampleRequest label := by
  simp [Request.ordered, sampleRequest]

theorem check_sample (label : Option String) :
    (sampleRequest label).ordered.check = .ok () := by
  rw [ordered_sample]
  rfl

/-- An absent label counts as an empty one. -/
theorem canonical_sample :
    (sampleRequest none).canonical = (sampleRequest (some "")).canonical := by
  rw [Request.canonical, Request.canonical, ordered_sample, ordered_sample]
  rfl

theorem injOn_sample : Set.InjOn Sha256.hex (texts (sampleCalls.map Call.request)) := by
  apply Set.Subsingleton.injOn
  have htext : ∀ t ∈ texts (sampleCalls.map Call.request),
      t = (sampleRequest (some "")).canonical.text := by
    rintro t ⟨r, hr, rfl⟩
    rcases List.mem_cons.1 hr with rfl | hr
    · rfl
    · obtain rfl := List.mem_singleton.1 hr
      exact congrArg CanonicalRequest.text canonical_sample
  exact fun t ht u hu => (htext t ht).trans (htext u hu).symm

theorem isFinite_sample (label : Option String) :
    isFinite (sampleReport label) = true := by
  have hzero : (-0.0 : Float).isFinite = true ∧ (0 : Float).isFinite = true := by decide +kernel
  simp [sampleReport, isFinite, hzero]

/-- The piece comes back as it was asked for. -/
theorem pack_sample (label : Option String) :
    Packing.Returns (pack .standard (.ofList [samplePanel]) ⟨0, 0, 0, 0, 0⟩ [samplePlank label])
      ⟨[], [sampleItem label]⟩ := by
  have hrank : Packer.ranked [samplePlank label] = [sampleItem label] :=
    List.mergeSort_singleton _
  unfold pack
  rw [hrank]
  rfl

theorem since_start : Moment.since ⟨⟨0⟩, 0⟩ ⟨⟨0⟩, 0⟩ = ⟨0, 0⟩ := by decide

theorem reply_sample (ttl : UInt64) (label : Option String) :
    (sampleCall label).reply (sampleService ttl) none = .ok (.ok (sampleReport label)) :=
  reply_of_returns (ordered_sample label) since_start (pack_sample label) rfl

theorem deadline_sample (label : Option String) :
    MemoryStore.deadline (sampleCall label).ended 60 = .ok 60000000000 := by
  simp [MemoryStore.deadline, MemoryStore.greatestUptime, sampleCall, Duration.nanosPerSecond]

theorem deadline_sample_overflow (label : Option String) :
    MemoryStore.deadline (sampleCall label).ended 18446744073709551615 =
      .error .deadlineOverflow := by
  simp [MemoryStore.deadline, MemoryStore.greatestUptime, sampleCall, Duration.nanosPerSecond]

/-- A service whose memory is empty answers call after call like one that has not been called
before. -/
theorem answers_like_fresh (s : Service) (v : Verbosity) (calls : List Call)
    (hsha : Set.InjOn Sha256.hex (texts (calls.map Call.request))) :
    Forall₂ (fun x a => s.LikeFresh v x.1 x.2 a) (calls.inits.zip calls)
      (s.answers v calls MemoryStore.empty) :=
  answers_likeFresh [] hsha remembers_empty

/-- The sample history satisfies the condition on addresses: it has one canonical text. -/
theorem answers_like_fresh_sample :
    Set.InjOn Sha256.hex (texts (sampleCalls.map Call.request)) ∧
      Forall₂ (fun x a => (sampleService 60).LikeFresh none x.1 x.2 a)
        (sampleCalls.inits.zip sampleCalls)
        ((sampleService 60).answers none sampleCalls MemoryStore.empty) :=
  ⟨injOn_sample, answers_like_fresh (sampleService 60) none sampleCalls injOn_sample⟩

/-! ### Where answers are not the same -/

/-- The second call finds the report on the first one, which still has the empty label. -/
theorem second_answer_sample :
    ((sampleService 60).serve none (sampleCall none)
      ((sampleService 60).serve none (sampleCall (some "")) MemoryStore.empty).1).2 =
        .ok (.ok (answerKept (sampleReport (some "")) (address (sampleRequest none)) "shelf")) := by
  have haddress : address (sampleRequest none) = address (sampleRequest (some "")) := by
    simp only [address, RequestDigest.ofRequest, Request.canonical_ordered, canonical_sample]
  exact serve_again (check_sample (some "")) (check_sample none) haddress rfl rfl
    (reply_sample 60 (some "")) (isFinite_sample _) (deadline_sample _) (by decide) (by decide)

/-- If no report can be kept, the second call is answered since the first one blocked the memory. -/
theorem second_answer_sample_overflow :
    ((sampleService 18446744073709551615).serve none (sampleCall none)
      ((sampleService 18446744073709551615).serve none (sampleCall (some ""))
        MemoryStore.empty).1).2 = .ok (.ok (sampleReport none)) := by
  obtain ⟨hblocked, -⟩ := serve_overflow (s := sampleService 18446744073709551615) (v := none)
    (m := MemoryStore.empty) (check_sample (some "")) rfl rfl (reply_sample _ (some ""))
    (deadline_sample_overflow _)
  rw [serve_blocked (check_sample none) hblocked, reply_sample]

/-- A service does not give the same answers as one that has not been called before: an empty label
may stay where the request has none, and a fault in a call is not there in the next one. -/
theorem answers_not_same :
    Set.InjOn Sha256.hex (texts (sampleCalls.map Call.request)) ∧
      (∀ c ∈ sampleCalls, MemoryStore.deadline c.ended 60 = .ok 60000000000) ∧
      ¬ Forall₂ (fun c a => Answer.Same a ((sampleService 60).freshAnswer none c)) sampleCalls
        ((sampleService 60).answers none sampleCalls MemoryStore.empty) ∧
      ¬ Forall₂
        (fun c a => Answer.Same a ((sampleService 18446744073709551615).freshAnswer none c))
        sampleCalls
        ((sampleService 18446744073709551615).answers none sampleCalls MemoryStore.empty) := by
  refine ⟨injOn_sample, by simp [sampleCalls, deadline_sample], fun h => ?_, fun h => ?_⟩
  · have hfresh : (sampleService 60).freshAnswer none (sampleCall none) =
        .ok (.ok (sampleReport none)) := by
      rcases serve_missed_answer (s := sampleService 60) (v := none) (c := sampleCall none)
        (m := MemoryStore.empty) (check_sample none) rfl with h | h
      · rw [freshAnswer, h, reply_sample]
      · exact absurd ((deadline_sample none).symm.trans h.1) nofun
    simp only [sampleCalls, answers, List.forall₂_cons] at h
    obtain ⟨-, hsame, -⟩ := h
    rw [second_answer_sample, hfresh] at hsame
    cases hsame with
    | ok h =>
      cases h with
      | ok h => exact absurd (congrArg Report.unplaced h) (by simp [answerKept, sampleReport])
  · obtain ⟨-, hfresh⟩ := serve_overflow (s := sampleService 18446744073709551615) (v := none)
      (m := MemoryStore.empty) (check_sample none) rfl rfl (reply_sample _ none)
      (deadline_sample_overflow _)
    simp only [sampleCalls, answers, List.forall₂_cons] at h
    obtain ⟨-, hsame, -⟩ := h
    rw [second_answer_sample_overflow, freshAnswer, hfresh] at hsame
    cases hsame

end Service

end Guillotine
