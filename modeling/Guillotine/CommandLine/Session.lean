import Guillotine.Batch.Basic
import Guillotine.CommandLine.Arguments

/-! A run of the command line program, in steps between which the clocks are looked at: it is set
up, each request file is prepared and then completed, and the latest results are listed. -/
namespace Guillotine

/-- What a session does next. -/
inductive Stage where
  | setUp
  | prepare (paths : List String)
  | complete (job : Job) (begun : Moment) (path : String) (paths : List String)
  | list
  /-- The session is over, perhaps with a problem. -/
  | ended (problem : Option String)

structure Session where
  arguments : Arguments
  /-- What tells the temporary files of this session from those of others. -/
  writer : String
  service : Service
  storage : Storage
  /-- How many request files have no solution. -/
  failures : Nat
  stage : Stage

namespace Session

/-- A session before its first step. -/
def opened (a : Arguments) (writer : String) (d : Disk) : Session where
  arguments := a
  writer := writer
  service := ⟨.standard, CacheSettings.standard.ttl⟩
  storage := .inMemory .empty d
  failures := 0
  stage := .setUp

/-- A step of setting up, which may end the session with a problem. -/
abbrev SettingUp := ExceptT String (Run Storage)

/-- The settings in a file, or the standard ones. -/
def readSettings (file : Option String) : SettingUp AppSettings := do
  match file with
  | none =>
    Logged.note .warn fun _ =>
      "[MAIN] No config file provided, use --config-file to provide a custom config"
    return .standard
  | some path =>
    let d := (← getThe Storage).disk
    match d.opens path with
    | .error _ => throw ("could not open config file: " ++ path)
    | .ok () =>
      match (d.readBytes path).toOption.bind Json.ofBytes? >>= ofJson? with
      | some s => return s
      | none => throw "incorrect config file format"

/-- Open the folder to keep results in, if there is one. -/
def openCache (folder : Option String) (writer : String) : SettingUp Unit := do
  match folder with
  | none => return
  | some path =>
    Logged.note .info fun _ => "[MAIN] caching results in " ++ path
    let storage ← getThe Storage
    match FolderStore.opened storage.disk path writer 0 with
    | (_, .ok store) => set (Storage.inFolder store)
    | (d, .error _) =>
      set (storage.withDisk d)
      throw "could not open cache folder"

/-- Make the folder for solutions, unless something is there. -/
def makeSolutionFolder (path : String) : SettingUp Unit := do
  let storage ← getThe Storage
  unless storage.disk.present path do
    let (d, made) := storage.disk.makeFolders path
    set (storage.withDisk d)
    match made with
    | .ok () => return
    | .error _ => throw ("could not create solution folder: " ++ path)

/-- Set everything up. The answer is the service. -/
def setUp (a : Arguments) (writer : String) (now : Moment) : SettingUp Service := do
  Logged.note .info fun _ => "[EPOCH]: " ++ now.wall.text
  let settings ← readSettings a.settingsFile
  Logged.note .info fun _ => "[MAIN] Successfully parsed AppConfig: " ++ settings.describe
  openCache a.cacheFolder writer
  makeSolutionFolder a.solutionFolder
  return ⟨settings.packing, settings.cache.ttl⟩

/-- What is said of a kept result. -/
def describeEntry (e : Entry) : String :=
  String.join ["[MAIN] ", e.timestamp.text, " ", e.digest, " '", e.report.summary.project, "': ",
    toString e.report.summary.boards, " board(s), cost ",
    Fixed.text 2 e.report.summary.totalCost]

/-- List the latest results. -/
def list (count : UInt64) (now : Moment) : Run Storage Unit := do
  let entries ← Service.recent now 0 count
  entries.forM fun e => Run.note .info fun _ => describeEntry e

/-- The problem at the end of a session. -/
def problem (s : Session) : Option String :=
  if s.failures = 0 then none
  else some <| String.join
    [toString s.failures, " of ", toString s.arguments.inputs.length, " request(s) failed"]

/-- Go on in the storage of a session. -/
def onStorage {α : Type} (x : Run Storage α) : Run Session α :=
  x.onPart Session.storage fun storage s => { s with storage }

/-- A request file has no solution. -/
def fail (path : String) (e : BatchError) (paths : List String) : Run Session Unit := do
  Run.note .error fun _ => String.join ["[MAIN] ", path, ": ", e.fullMessage]
  modify fun s => { s with failures := s.failures + 1, stage := .prepare paths }

/-- One step of a session. -/
def step (now : Moment) : Run Session Unit := do
  let s ← get
  match s.stage with
  | .setUp =>
    match ← onStorage (setUp s.arguments s.writer now).run with
    | .error problem => modify fun s => { s with stage := .ended (some problem) }
    | .ok service => modify fun s => { s with service, stage := .prepare s.arguments.inputs }
  | .prepare [] => modify fun s => { s with stage := .list }
  | .prepare (path :: paths) =>
    match ← onStorage (Batch.start s.service now path).run with
    | .error e => fail path e paths
    | .ok job => modify fun s => { s with stage := .complete job now path paths }
  | .complete job begun path paths =>
    let elapsed := now.since begun
    match ← onStorage (Batch.complete s.service now elapsed s.arguments.solutionFolder job).run with
    | .error e => fail path e paths
    | .ok _ => modify fun s => { s with stage := .prepare paths }
  | .list =>
    match s.arguments.recent with
    | some count => onStorage (list count now)
    | none => pure ()
    modify fun s => { s with stage := .ended s.problem }
  | .ended _ => pure ()

/-- The most steps that a session with some arguments takes. -/
def stepCount (a : Arguments) : Nat := 2 * a.inputs.length + 3

/-- All steps of a session, each at the moment that a clock shows for its number. -/
def run (clock : Nat → Moment) : Run Session Unit := do
  let s ← get
  (List.range (stepCount s.arguments)).forM fun n => step (clock n)

end Session

end Guillotine
