import Guillotine.Batch.Solution
import Guillotine.Cache.Storage
import Guillotine.Service

/-! Requests from files, and solutions to files. The solution of a request in a file is written to
another folder, into a file that is named for the stem of the first one. -/
namespace Guillotine

/-- Why a request file has no solution. -/
inductive BatchError where
  | nameless (path : String)
  | unopened (path : String) (why : FileError)
  | unread (path : String)
  | rejected (path : String) (why : Rejection)
  | unwritten (path : String) (why : FileError)

namespace BatchError

def message : BatchError → String
  | nameless path => "invalid input file name: " ++ path
  | unopened path _ => "could not open request file: " ++ path
  | unread path => "could not parse request file: " ++ path
  | rejected path _ => "could not optimize " ++ path
  | unwritten path _ => "could not open solution file: " ++ path

/-- What lies behind an error. -/
def cause? : BatchError → Option String
  | nameless _ => none
  | unopened _ why => some why.message
  | unread _ => some "not the expected document"
  | rejected _ why => some why.message
  | unwritten _ why => some why.message

/-- An error with what lies behind it. -/
def fullMessage (e : BatchError) : String :=
  match e.cause? with
  | some cause => String.join [e.message, ": ", cause]
  | none => e.message

end BatchError

/-- A step of a batch. -/
abbrev Batching := ExceptT BatchError (Run Storage)

/-- A request that has been read, and what is known of the answer. -/
structure Job where
  stem : String
  request : Request
  prospect : Prospect

/-- What is said of a report. -/
def Report.announcement (r : Report) (stem : String) : String :=
  String.join ["[MAIN] ", stem, ": ", toString r.summary.boards, " board(s), ",
    toString r.unplaced.length, " unplaced, ", Fixed.text 1 r.summary.wastePercentage,
    "% waste, cost ", Fixed.withCommas (Fixed.toInteger r.summary.totalCost), " (",
    if r.cached then "cached" else r.summary.time, ", ", r.digest, ")"]

namespace Batch

/-- The path of the solution of a request with a stem. -/
def solutionPath (folder stem : String) : String :=
  Path.join folder (String.join ["sol_", stem, ".json"])

/-- The request in a file. -/
def readRequest (d : Disk) (path : String) : Except BatchError Request :=
  match d.opens path with
  | .error why => .error (.unopened path why)
  | .ok () =>
    match (d.readBytes path).toOption.bind Json.ofBytes? >>= ofJson? with
    | some r => .ok r
    | none => .error (.unread path)

/-- Read the request in a file, and look for an answer. -/
def start (s : Service) (now : Moment) (path : String) : Batching Job := do
  match Path.stem? path with
  | none => throw (.nameless path)
  | some stem =>
    let storage ← getThe Storage
    let request ← ExceptT.mk (pure (readRequest storage.disk path))
    match ← (ExceptT.run (s.prepare now request) : Run Storage _) with
    | .error why => throw (.rejected path why)
    | .ok prospect => return ⟨stem, request, prospect⟩

/-- Write a solution. The answer is its path. -/
def writeSolution (path : String) (s : Solution) : Batching String := do
  let storage ← getThe Storage
  match storage.disk.writeText path (toJson s).indented with
  | .error why => throw (.unwritten path why)
  | .ok d =>
    set (storage.withDisk d)
    let place := (d.locate path).toOption.getD []
    Logged.note .info fun _ => "[IO] solution written to file://" ++ Path.ofNames place
    return path

/-- Answer a request that has been read, and write the solution. -/
def complete (s : Service) (now : Moment) (elapsed : Duration) (folder : String) (job : Job) :
    Batching String := do
  let report ← (s.finish now elapsed job.prospect : Run Storage Report)
  Logged.note .info fun _ => report.announcement job.stem
  writeSolution (solutionPath folder job.stem) ⟨job.request, report, s.settings⟩

/-- Solve the request in a file and write the solution to a folder. -/
def process (s : Service) (begun ended : Moment) (path folder : String) : Batching String := do
  let job ← start s begun path
  complete s ended (ended.since begun) folder job

end Batch

end Guillotine
