import Guillotine.Proofs.Cache.Results
import Guillotine.Proofs.Report.Alike
import Guillotine.Proofs.Request.Demand
import Guillotine.Service

/-! What a service answers. A request that fails its check is turned down, whatever is kept. Any
other request gets the report that is kept for it, if there is one, and else a reply that depends on
the request alone, which is then kept. -/
namespace Guillotine

namespace Service

open Run

variable {σ : Type} [Backend σ] {s : Service} {v : Verbosity} {m t : σ} {begun ended : Moment}
  {r : Request}

/-- The address of a request. -/
def address (r : Request) : RequestDigest := RequestDigest.ofRequest r.ordered

/-- The plan for a demand. -/
def plan (s : Service) (demand : Demand) : Packing Plan :=
  pack s.settings (.ofList demand.materials) demand.saw demand.pieces

/-- The report on a plan that is ready, after it was announced. -/
def present (s : Service) (d : RequestDigest) (project : String) (elapsed : Duration)
    (plan : Plan) : Logged Report := do
  plan.announce elapsed
  let fresh ← plan.report project elapsed s.settings.reusableSide
  return { fresh with digest := d.hex }

/-- The reply to a demand that is packed anew. -/
def reply (s : Service) (d : RequestDigest) (demand : Demand) (elapsed : Duration) :
    Packing Report := do
  let plan ← s.plan demand
  s.present d demand.project elapsed plan

/-! ### The ways to an answer -/

theorem optimize_rejected {e : Rejection} (h : r.ordered.check = .error e) :
    ((s.optimize begun ended r).run v m).outcome = (m, .ok (.error e)) := by
  have hdemand : ((Serving.ofPacking r.ordered.demand : Serving σ Demand).run v m).outcome =
      (m, .ok (.error e)) := by
    show (m, (r.ordered.demand.run.record v).2) = _
    rw [Request.record_demand, h]
    rfl
  apply outcome_run_bind_thrown
  exact outcome_run_bind_thrown hdemand

theorem present_record (d : RequestDigest) (project : String) (elapsed : Duration) (plan : Plan) :
    ((s.present d project elapsed plan).record v).2 =
      ((plan.announce elapsed).record v).2 >>= fun _ =>
        (plan.report project elapsed s.settings.reusableSide).map fun fresh =>
          { fresh with digest := d.hex } := by
  unfold present
  rw [Logged.record_bind]
  congr
  funext _
  rw [Logged.record_bind, Logged.record_lift]
  cases plan.report project elapsed s.settings.reusableSide <;> rfl

/-- The report on a plan that is ready is kept. -/
theorem finish_outcome (d : RequestDigest) (project : String) (elapsed : Duration) (plan : Plan) :
    (s.finish ended elapsed (.planned d project plan) v t).outcome =
      match ((s.present d project elapsed plan).record v).2 with
      | .error f => (t, .error f)
      | .ok report =>
        let kept := (Results.store ended s.ttl d report v t).outcome
        (kept.1, kept.2.map fun _ => report) := by
  have hannounce : ((liftM (plan.announce elapsed) : Run σ Unit) v t).outcome =
      (t, ((plan.announce elapsed).record v).2) := rfl
  have hreport : ((liftM (plan.report project elapsed s.settings.reusableSide) :
      Run σ Report) v t).outcome =
        (t, plan.report project elapsed s.settings.reusableSide) := rfl
  unfold finish
  rw [outcome_bind, hannounce, present_record]
  cases ((plan.announce elapsed).record v).2 with
  | error f => rfl
  | ok u =>
    dsimp only
    rw [outcome_bind, hreport]
    cases plan.report project elapsed s.settings.reusableSide with
    | error f => rfl
    | ok fresh =>
      show Turn.outcome _ = (_, Except.map _ _)
      rw [outcome_bind]
      obtain ⟨t', w⟩ := (Results.store ended s.ttl d { fresh with digest := d.hex } v t).outcome
      cases w <;> rfl

theorem reply_record (d : RequestDigest) (demand : Demand) (elapsed : Duration) :
    ((s.reply d demand elapsed).run.record v).2 =
      match ((s.plan demand).run.record v).2 with
      | .error f => .error f
      | .ok (.error e) => .ok (.error e)
      | .ok (.ok plan) => ((s.present d demand.project elapsed plan).record v).2.map .ok := by
  unfold reply
  rw [Logged.record_run_bind]
  rcases ((s.plan demand).run.record v).2 with f | e | plan
  · rfl
  · rfl
  · exact Logged.record_run_lift v _

theorem demand_outcome {τ : Type} {n : τ} (h : r.ordered.check = .ok ()) :
    ((Serving.ofPacking r.ordered.demand : Serving τ Demand).run v n).outcome =
      (n, .ok (.ok r.ordered.toDemand)) := by
  show (n, (r.ordered.demand.run.record v).2) = _
  rw [Request.record_demand, h]
  rfl

section Checked

variable (hcheck : r.ordered.check = .ok ())

include hcheck

theorem optimize_kept {report : Report}
    (hlookup : (Results.lookup begun (address r) v m).outcome = (t, .ok (some report))) :
    ((s.optimize begun ended r).run v m).outcome =
      (t, .ok (.ok (answerKept report (address r) r.project))) := by
  have hprepare : ((s.prepare begun r : Serving σ Prospect).run v m).outcome =
      (t, .ok (.ok (.kept (answerKept report (address r) r.project)))) := by
    apply (outcome_run_bind_ok (demand_outcome hcheck)).trans
    apply (outcome_run_bind_ok (outcome_run_lift_ok hlookup)).trans
    exact outcome_run_bind_ok (outcome_run_lift_ok outcome_note)
  exact outcome_run_bind_ok hprepare

/-- A fault in looking for a report is the answer. -/
theorem optimize_stuck {e : Fault}
    (hlookup : (Results.lookup begun (address r) v m).outcome = (t, .error e)) :
    ((s.optimize begun ended r).run v m).outcome = (t, .error e) := by
  have hlooked : ((liftM (Results.lookup begun (address r) : Run σ _) :
      Serving σ (Option Report)).run v m).outcome = (t, .error e) := by
    rw [outcome_run_lift, hlookup]
    rfl
  apply outcome_run_bind_fault
  apply (outcome_run_bind_ok (demand_outcome hcheck)).trans
  exact outcome_run_bind_fault hlooked

theorem optimize_missed
    (hlookup : (Results.lookup begun (address r) v m).outcome = (t, .ok none)) :
    ((s.optimize begun ended r).run v m).outcome =
      match ((s.reply (address r) r.ordered.toDemand (ended.since begun)).run.record v).2 with
      | .error f => (t, .error f)
      | .ok (.error e) => (t, .ok (.error e))
      | .ok (.ok report) =>
        let kept := (Results.store ended s.ttl (address r) report v t).outcome
        (kept.1, kept.2.map fun _ => .ok report) := by
  have hplan : ((Serving.ofPacking (s.plan r.ordered.toDemand) : Serving σ Plan).run v t).outcome =
      (t, ((s.plan r.ordered.toDemand).run.record v).2) := rfl
  have hprepare : ((s.prepare begun r : Serving σ Prospect).run v m).outcome =
      ((Serving.ofPacking (s.plan r.ordered.toDemand) >>= fun plan =>
        pure (.planned (address r) r.project plan) : Serving σ Prospect).run v t).outcome := by
    apply (outcome_run_bind_ok (demand_outcome hcheck)).trans
    apply (outcome_run_bind_ok (outcome_run_lift_ok hlookup)).trans
    exact outcome_run_bind_ok (outcome_run_lift_ok outcome_note)
  have hproject : r.ordered.toDemand.project = r.project := rfl
  unfold optimize
  rw [outcome_run_bind, hprepare, outcome_run_bind, hplan, reply_record, hproject]
  rcases ((s.plan r.ordered.toDemand).run.record v).2 with f | e | plan
  · rfl
  · rfl
  · show ((liftM (s.finish ended (ended.since begun) (.planned (address r) r.project plan)) :
      Serving σ Report).run v t).outcome = _
    rw [outcome_run_lift, finish_outcome]
    dsimp only
    rcases ((s.present (address r) r.project (ended.since begun) plan).record v).2 with f | report
    · rfl
    · show _ = (_, Except.map _ _)
      dsimp only
      rcases (Results.store ended s.ttl (address r) report v t).outcome with ⟨t', f | u⟩ <;> rfl

end Checked

end Service

end Guillotine
