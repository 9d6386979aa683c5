import Guillotine.Proofs.Request.Classes
import Guillotine.Proofs.Service.History

/-! Requests that differ in the order of their entries only. What a service that has not been called
before answers to them is the same but for how long packing took, if the labels tell the cuts of the
request apart. A cut with an empty label and one without a label, which are the same otherwise, stay
in the order in which they come, and so the order shows in which of their ids goes with which
label. -/
namespace Guillotine

/-- Two reports are the same, but for how long packing took. -/
def Report.SameButTime (r q : Report) : Prop :=
  { r with summary := { r.summary with time := q.summary.time } } = q

namespace Service

variable {s : Service} {v : Verbosity} {c d : Call}

/-- Two answers are the same, but for how long packing took. -/
def Answer.SameButTime : Answer → Answer → Prop := Agree (Agree Report.SameButTime)

/-- The replies to requests of one canonical order are the same. -/
theorem Call.reply_sameButTime (h : c.request.ordered = d.request.ordered) :
    Answer.SameButTime (c.reply s v) (d.reply s v) := by
  have hproject : c.request.project = d.request.project := (congrArg Request.project h :)
  have hcanonical : c.request.canonical = d.request.canonical := by
    rw [← Request.canonical_ordered, h, Request.canonical_ordered]
  have halike := Call.reply_alike (s := s) (v := v) hproject hcanonical
    (Request.itemsAlike_of_cuts (fun _ => rfl) (congrArg Request.cuts h))
  generalize hc : c.reply s v = a at halike ⊢
  generalize hd : d.reply s v = b at halike ⊢
  cases halike with
  | error f => exact .error f
  | ok halike =>
    cases halike with
    | error e => exact .ok (.error e)
    | ok halike =>
      -- Neither of the two reports was kept.
      have hsame := halike.eq
      rw [(reply_fresh hd).1, ← (reply_fresh hc).1] at hsame
      exact .ok (.ok hsame)

/-! ### A sample request -/

/-- A request for two pieces that fit on no sheet and differ in their labels only. -/
def twinRequest (first second : Option String) : Request where
  project := "shelf"
  cuts := [⟨1000, 500, 1, "oak", first, true, none, 0⟩,
    ⟨1000, 500, 1, "oak", second, true, none, 0⟩]
  materials := [samplePanel]
  saw := ⟨0, 0, 0, 0, 0⟩

def twinCall (first second : Option String) : Call :=
  ⟨⟨⟨0⟩, 0⟩, ⟨⟨0⟩, 0⟩, twinRequest first second⟩

theorem permuted_twins (first second : Option String) :
    (twinCall first second).request.Permuted (twinCall second first).request :=
  ⟨rfl, rfl, .swap .., .refl _⟩

theorem labelsApart_twins : (twinCall (some "left") none).request.LabelsApart := by
  simp [Request.LabelsApart, twinCall, twinRequest, Cut.labelled]

/-- A service that has not been called before answers requests that differ in the order of their
entries alike, and the same if the labels tell the cuts apart. It may be that just one of the two
reports cannot be kept, since its time to live ends beyond the last point in time. -/
theorem freshAnswer_permuted (s : Service) (v : Verbosity) (c d : Call)
    (h : c.request.Permuted d.request) :
    (Answer.Alike (s.freshAnswer v c) (s.freshAnswer v d) ∧
      (c.request.LabelsApart → Answer.SameButTime (s.freshAnswer v c) (s.freshAnswer v d))) ∨
      Xor (c.Overflows s (s.freshAnswer v c)) (d.Overflows s (s.freshAnswer v d)) := by
  cases hcheck : c.request.ordered.check with
  | error e =>
    left
    have hd : d.request.ordered.check = .error e := h.check_eq ▸ hcheck
    rw [freshAnswer, freshAnswer, serve_rejected hcheck, serve_rejected hd]
    exact ⟨.ok (.error e), fun _ => .ok (.error e)⟩
  | ok u =>
    have hd : d.request.ordered.check = .ok () := h.check_eq ▸ hcheck
    by_cases hoverC : c.Overflows s (s.freshAnswer v c) <;>
      by_cases hoverD : d.Overflows s (s.freshAnswer v d)
    · left
      rw [hoverC.2, hoverD.2]
      exact ⟨.error _, fun _ => .error _⟩
    · exact .inr (.inl ⟨hoverC, hoverD⟩)
    · exact .inr (.inr ⟨hoverD, hoverC⟩)
    · left
      have hreplyC : s.freshAnswer v c = c.reply s v :=
        (serve_missed_answer hcheck rfl).resolve_right hoverC
      have hreplyD : s.freshAnswer v d = d.reply s v :=
        (serve_missed_answer hd rfl).resolve_right hoverD
      rw [hreplyC, hreplyD]
      have hcanonical := h.canonical_eq hcheck
      exact ⟨Call.reply_alike h.project hcanonical (Request.itemsAlike_of_canonical hcanonical),
        fun hlabels => Call.reply_sameButTime (h.ordered_eq hcheck hlabels)⟩

theorem freshAnswer_permuted_twins :
    (twinCall (some "left") none).request.Permuted (twinCall none (some "left")).request ∧
      (twinCall (some "left") none).request.LabelsApart ∧
      ((Answer.Alike ((sampleService 60).freshAnswer none (twinCall (some "left") none))
          ((sampleService 60).freshAnswer none (twinCall none (some "left"))) ∧
        ((twinCall (some "left") none).request.LabelsApart →
          Answer.SameButTime ((sampleService 60).freshAnswer none (twinCall (some "left") none))
            ((sampleService 60).freshAnswer none (twinCall none (some "left"))))) ∨
        Xor ((twinCall (some "left") none).Overflows (sampleService 60)
            ((sampleService 60).freshAnswer none (twinCall (some "left") none)))
          ((twinCall none (some "left")).Overflows (sampleService 60)
            ((sampleService 60).freshAnswer none (twinCall none (some "left"))))) :=
  ⟨permuted_twins _ _, labelsApart_twins, freshAnswer_permuted _ _ _ _ (permuted_twins _ _)⟩

/-! ### Where the order of a request shows -/

def twinPlank (id : String) (label : Option String) : Piece := { samplePlank label with id }

def twinItem (id : String) (label : Option String) : Item := { sampleItem label with id }

/-- The answer to the sample request, if its labels count as the same. -/
def twinReport (first second : Option String) : Report :=
  { sampleReport first with
    unplaced := [(twinItem "c1" first).unplaced, (twinItem "c2" second).unplaced]
    digest := (address (twinRequest first second)).hex }

section Twins

variable {first second : Option String}

/-- Cuts whose labels count as the same stay as they are. -/
theorem ordered_twins (h : first.getD "" = second.getD "") :
    (twinRequest first second).ordered = twinRequest first second := by
  have htie : Cut.compare ⟨1000, 500, 1, "oak", first, true, none, 0⟩
      ⟨1000, 500, 1, "oak", second, true, none, 0⟩ = .eq := by
    simp [Cut.compare, h]
  have hcuts : ((twinRequest first second).cuts.mergeSort fun a b => (a.compare b).isLE) =
      (twinRequest first second).cuts :=
    List.mergeSort_of_pairwise (by simp [twinRequest, htie])
  rw [Request.ordered, hcuts]
  simp [twinRequest]

theorem pack_twins (first second : Option String) :
    Packing.Returns (pack .standard (.ofList [samplePanel]) ⟨0, 0, 0, 0, 0⟩
      [twinPlank "c1" first, twinPlank "c2" second])
      ⟨[], [twinItem "c1" first, twinItem "c2" second]⟩ := by
  have hrank : Packer.ranked [twinPlank "c1" first, twinPlank "c2" second] =
      [twinItem "c1" first, twinItem "c2" second] := by
    have hle : Packer.ranksAtLeast (twinItem "c1" first) (twinItem "c2" second) = true := by
      simp [Packer.ranksAtLeast, twinItem, sampleItem, Item.area]
    exact List.mergeSort_of_pairwise (List.pairwise_pair.2 hle)
  unfold pack
  rw [hrank]
  rfl

theorem pieces_twins (first second : Option String) :
    (twinRequest first second).pieces = [twinPlank "c1" first, twinPlank "c2" second] := by
  have hids : s!"c{0 + 1}" = "c1" ∧ s!"c{0 + 1 + 1}" = "c2" := by decide +kernel
  simp only [Request.pieces, twinRequest, List.mapIdx_cons, List.mapIdx_nil, Request.piece,
    twinPlank, samplePlank, hids]

theorem reply_twins (h : first.getD "" = second.getD "") :
    (twinCall first second).reply (sampleService 60) none =
      .ok (.ok (twinReport first second)) := by
  have hplan : Packing.Returns ((sampleService 60).plan (twinRequest first second).toDemand)
      ⟨[], [twinItem "c1" first, twinItem "c2" second]⟩ := by
    unfold plan Request.toDemand
    rw [pieces_twins]
    exact pack_twins first second
  exact reply_of_returns (ordered_twins h) since_start hplan rfl

theorem freshAnswer_twins (h : first.getD "" = second.getD "") :
    (sampleService 60).freshAnswer none (twinCall first second) =
      .ok (.ok (twinReport first second)) := by
  have hcheck : (twinCall first second).request.ordered.check = .ok () := by
    show (twinRequest first second).ordered.check = _
    rw [ordered_twins h, Request.check, pieces_twins]
    rfl
  rw [freshAnswer, serve_missed_reply (s := sampleService 60) hcheck rfl (deadline_sample none),
    reply_twins h]

end Twins

/-- An empty label and an absent one do not tell two cuts apart, and so the order of the request
decides which of them is the first one. -/
theorem freshAnswer_permuted_not_same :
    (twinCall none (some "")).request.Permuted (twinCall (some "") none).request ∧
      ¬ Answer.SameButTime ((sampleService 60).freshAnswer none (twinCall none (some "")))
        ((sampleService 60).freshAnswer none (twinCall (some "") none)) := by
  refine ⟨permuted_twins _ _, fun h => ?_⟩
  have htie : (none : Option String).getD "" = (some "").getD "" := rfl
  rw [freshAnswer_twins htie, freshAnswer_twins htie.symm] at h
  cases h with
  | ok h =>
    cases h with
    | ok h =>
      have hunplaced := congrArg Report.unplaced h
      simp [twinReport, twinItem, sampleItem, Item.unplaced] at hunplaced

end Service

end Guillotine
