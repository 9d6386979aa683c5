import Guillotine.CommandLine.Session
import Std.Time.DateTime.Timestamp

/-! The command line program. What its arguments name on the disk is read first; then the session
goes on step by step, and after each step its lines are printed and its changes are made. -/
namespace Guillotine

namespace Terminal

def usage : String := "\n".intercalate [
  "Usage: guillotine --input-files <FILE>... --solution-folder <FOLDER> [OPTIONS]",
  "",
  "  -i, --input-files <FILE>...     requests to solve",
  "  -s, --solution-folder <FOLDER>  where to write the solutions",
  "  -c, --config-file <FILE>        settings",
  "  -d, --cache-dir <FOLDER>        keep results here instead of in memory",
  "  -r, --recent <N>                list this many of the latest results at the end",
  "  -l, --log-level <LEVEL>         off, error, warn, info, debug or trace",
  "  -h, --help                      show this text",
  "  -V, --version                   show the version"]

def version : String := "guillotine 0.1.0"

/-- Look at the clocks. -/
def look : IO Moment := do
  let wall ← Std.Time.Timestamp.now
  return ⟨⟨wall.toNanosecondsSinceUnixEpoch.val⟩, ← IO.monoNanosNow⟩

/-! ### The disk -/

/-- Learn what stands at a location. Where it cannot be looked at, nothing stands. -/
def learn (d : Disk) (l : Location) : IO Disk :=
  try
    let p ← IO.FS.realPath (Path.ofNames l)
    if ← p.isDir then return d.insert l .folder
    else return d.insert l (.file (← IO.FS.readBinFile p))
  catch _ => return d

/-- Learn what stands at all locations on the way along some names, and at the end. -/
def learnAlong (d : Disk) (start : Location) (names : List String) : IO (Disk × Location) :=
  names.foldlM (fun (d, l) name => do
    let l := if name = "" ∨ name = "." then l else if name = ".." then l.dropLast else l ++ [name]
    return (← learn d l, l)) (d, start)

/-- Learn what stands along a path. -/
def learnPath (d : Disk) (path : String) : IO (Disk × Location) :=
  learnAlong d (d.origin path) (path.splitOn "/")

/-- Learn what stands along a path, and in the folder at its end. -/
def learnFolder (d : Disk) (path : String) : IO Disk := do
  let (d, l) ← learnPath d path
  match d.at? l with
  | some .folder =>
    let p ← IO.FS.realPath (Path.ofNames l)
    (← p.readDir).toList.foldlM (fun d entry => learn d (l ++ [entry.fileName])) d
  | _ => return d

/-- All that some arguments name. -/
def snapshot (a : Arguments) : IO Disk := do
  let here := ((← IO.currentDir).toString.splitOn "/").filter (· ≠ "")
  let (d, _) ← learnAlong ⟨.empty, here⟩ [] here
  let solutions := (a.inputs.filterMap Path.stem?).map (Batch.solutionPath a.solutionFolder)
  let paths := a.inputs ++ a.settingsFile.toList ++ [a.solutionFolder] ++ solutions
  let d ← paths.foldlM (fun d path => do return (← learnPath d path).1) d
  a.cacheFolder.toList.foldlM learnFolder d

/-- Make the changes that lead from one disk to another, folders from the outside in. -/
def change (before after : Disk) : IO Unit := do
  for (l, _) in before.nodes.entries do
    if after.at? l |>.isNone then IO.FS.removeFile (Path.ofNames l)
  let changed := after.nodes.entries.filter fun (l, n) => before.at? l ≠ some n
  for (l, n) in changed.mergeSort fun a b => a.1.length ≤ b.1.length do
    match n with
    | .folder => IO.FS.createDirAll (Path.ofNames l)
    | .file bytes => IO.FS.writeBinFile (Path.ofNames l) bytes

/-! ### Lines -/

/-- A line with its level and the time since the start. -/
def describe (elapsed : Duration) (l : Line) : String :=
  let s := elapsed.seconds.toNat
  let start := String.join ["[", l.level.name, "] [", Fixed.padded 2 (s / 3600), ":",
    Fixed.padded 2 (s / 60 % 60), ":", Fixed.padded 2 (s % 60), "] <main>"]
  String.join [start, String.ofList (List.replicate (27 - start.length) ' '), l.text]

/-- Run a session. The answer is the exit code. -/
def run (a : Arguments) : IO UInt32 := do
  let start ← look
  let mut session := Session.opened a (toString start.wall.nanoseconds) (← snapshot a)
  for _ in [0 : Session.stepCount a] do
    let now ← look
    let turn := Session.step now a.verbosity session
    for line in turn.lines do
      IO.println (describe (now.since start) line)
    change session.storage.disk turn.state.storage.disk
    session := turn.state
    match turn.value with
    | .ok () => pure ()
    | .error fault =>
      IO.eprintln fault.message
      return 101
  match session.stage with
  | .ended (some problem) =>
    IO.eprintln ("Error: " ++ problem)
    return 1
  | _ => return 0

end Terminal

end Guillotine

open Guillotine in
/-- Solve the requests in some files. -/
def main (words : List String) : IO UInt32 := do
  match Arguments.ofWords words with
  | .ok a => Terminal.run a
  | .error .helpWanted =>
    IO.println Terminal.usage
    return 0
  | .error .versionWanted =>
    IO.println Terminal.version
    return 0
  | .error e =>
    IO.eprintln ("error: " ++ e.message)
    return 2
