import Guillotine.Cache.Results
import Guillotine.Report.OfPlan
import Guillotine.Request.Intake

/-! The service: requests in, reports out. A request whose canonical form was answered before gets
the kept report. Otherwise its canonical order is packed, so that requests which differ only in the
order of their materials and cuts get the same report. -/
namespace Guillotine

/-- How a service packs, and how long it keeps its reports, in seconds. -/
structure Service where
  settings : Settings
  ttl : UInt64

/-- A step of a service: it may turn the request down. -/
abbrev Serving (σ : Type) := ExceptT Rejection (Run σ)

namespace Serving

variable {σ α : Type}

/-- A step of packing as one of a service. -/
def ofPacking (x : Packing α) : Serving σ α := ExceptT.mk (Run.ofLogged x.run)

end Serving

/-- What is known of the answer to a request before the clocks are looked at again. -/
inductive Prospect where
  /-- The report that was kept. -/
  | kept (report : Report)
  /-- The plan for a request that was not answered before. -/
  | planned (digest : RequestDigest) (project : String) (plan : Plan)

namespace Service

variable {σ : Type} [Backend σ]

/-- A kept report as the answer for a project. -/
def answerKept (r : Report) (d : RequestDigest) (project : String) : Report :=
  { r with cached := true, digest := d.hex, summary := { r.summary with project } }

/-- Look for the report on a request, and pack the request if there is none. -/
def prepare (s : Service) (now : Moment) (r : Request) : Serving σ Prospect := do
  let ordered := r.ordered
  let demand ← Serving.ofPacking ordered.demand
  let d := RequestDigest.ofRequest ordered
  match ← (Results.lookup now d : Run σ _) with
  | some report =>
    Logged.note .info fun _ => "[SVC] cache hit for " ++ d.hex
    return .kept (answerKept report d demand.project)
  | none =>
    Logged.note .info fun _ => String.join ["[SVC] cache miss for ", d.hex, ", optimizing"]
    let plan ← Serving.ofPacking
      (pack s.settings (.ofList demand.materials) demand.saw demand.pieces)
    return .planned d demand.project plan

/-- Answer a request. A new report is kept. -/
def finish (s : Service) (now : Moment) (elapsed : Duration) : Prospect → Run σ Report
  | .kept report => return report
  | .planned d project plan => do
    plan.announce elapsed
    let fresh ← plan.report project elapsed s.settings.reusableSide
    let report := { fresh with digest := d.hex }
    Results.store now s.ttl d report
    return report

/-- Answer a request that comes at `begun`, with a plan that is ready at `ended`. -/
def optimize (s : Service) (begun ended : Moment) (r : Request) : Serving σ Report := do
  let prospect ← s.prepare begun r
  (s.finish ended (ended.since begun) prospect : Run σ Report)

/-- The entry about the report with a digest in hexadecimal digits. -/
def cached (now : Moment) (hex : String) : Run σ (Option Entry) :=
  match RequestDigest.ofHex? hex with
  | none => return none
  | some d => Results.entryOf? now d

/-- The entries about `limit` reports after the latest `offset` ones, the latest first. -/
def recent (now : Moment) (offset limit : UInt64) : Run σ (List Entry) :=
  Results.recent now offset limit

end Service

end Guillotine
