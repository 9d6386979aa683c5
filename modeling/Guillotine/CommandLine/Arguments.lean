import Guillotine.Journal

/-! The arguments of the command line program. An option is given by a long name after two hyphens
or a letter after one. Its value is attached with `=`, or directly to the letter, or is the next
word. Only the option for request files takes several values. -/
namespace Guillotine

structure Arguments where
  inputs : List String
  solutionFolder : String
  settingsFile : Option String
  /-- The folder to keep results in; they are kept in memory if there is none. -/
  cacheFolder : Option String
  /-- How many of the latest results to list at the end. -/
  recent : Option UInt64
  verbosity : Verbosity

/-- Why there are no arguments. The last two are no errors. -/
inductive UsageError where
  | missingRequired
  | unknownArgument
  /-- An option without the value it needs, or with an empty one. -/
  | invalidValue
  /-- A value that cannot be read. -/
  | unreadableValue
  | repeatedOption
  /-- A value for an option that takes none. -/
  | needlessValue
  | helpWanted
  | versionWanted
deriving DecidableEq, Repr

def UsageError.message : UsageError → String
  | missingRequired => "request files and a solution folder are required"
  | unknownArgument => "unexpected argument"
  | invalidValue => "a value is required"
  | unreadableValue => "invalid value"
  | repeatedOption => "an option is given more than once"
  | needlessValue => "unexpected value"
  | helpWanted => "help"
  | versionWanted => "version"

namespace Arguments

/-- The options that take values. -/
inductive Key where
  | inputFiles
  | solutionFolder
  | configFile
  | cacheDir
  | recent
  | logLevel
deriving DecidableEq, Repr

def Key.ofName? : String → Option Key
  | "input-files" => some .inputFiles
  | "solution-folder" => some .solutionFolder
  | "config-file" => some .configFile
  | "cache-dir" => some .cacheDir
  | "recent" => some .recent
  | "log-level" => some .logLevel
  | _ => none

def Key.ofLetter? : Char → Option Key
  | 'i' => some .inputFiles
  | 's' => some .solutionFolder
  | 'c' => some .configFile
  | 'd' => some .cacheDir
  | 'r' => some .recent
  | 'l' => some .logLevel
  | _ => none

/-- The flags that ask for something else than a run. -/
def flagOfName? : String → Option UsageError
  | "help" => some .helpWanted
  | "version" => some .versionWanted
  | _ => none

def flagOfLetter? : Char → Option UsageError
  | 'h' => some .helpWanted
  | 'V' => some .versionWanted
  | _ => none

/-! ### Values -/

/-- A path is any text but the empty one. -/
def readPath (s : String) : Except UsageError String :=
  if s = "" then .error .invalidValue else .ok s

/-- A number of 64 bits; a plus sign in front is allowed. -/
def readCount (s : String) : Except UsageError UInt64 :=
  let cs := s.toList
  let ds := if cs.head? = some '+' then cs.drop 1 else cs
  let n := ds.foldl (fun n d => 10 * n + (d.toNat - '0'.toNat)) 0
  if ds ≠ [] ∧ ds.all Char.isDigit ∧ n < UInt64.size then .ok (UInt64.ofNat n)
  else .error .unreadableValue

def readVerbosity (s : String) : Except UsageError Verbosity :=
  let all : List Verbosity :=
    [none, some .error, some .warn, some .info, some .debug, some .trace]
  match all.find? fun v => v.name = s.map Char.toUpper with
  | some v => .ok v
  | none => .error .unreadableValue

/-! ### Reading -/

/-- The options read so far. -/
structure Draft where
  inputs : List String
  solutionFolder : Option String
  settingsFile : Option String
  cacheFolder : Option String
  recent : Option UInt64
  verbosity : Option Verbosity
  /-- An option that has not got all its values yet, with those it has. -/
  pending : Option (Key × List String)
  /-- Whether two hyphens have ended the options. -/
  ended : Bool

def Draft.empty : Draft := ⟨[], none, none, none, none, none, none, false⟩

/-- The value of an option that was not given before. -/
def single {α : Type} (old : Option α) (read : String → Except UsageError α) :
    List String → Except UsageError (Option α)
  | [] => .error .invalidValue
  | value :: _ => if old.isSome then .error .repeatedOption else (read value).map some

namespace Draft

/-- Take over an option with its values. -/
def give (d : Draft) (k : Key) (values : List String) : Except UsageError Draft := do
  match k with
  | .inputFiles =>
    if values = [] then throw .invalidValue
    return { d with inputs := d.inputs ++ (← values.mapM readPath) }
  | .solutionFolder =>
    return { d with solutionFolder := ← single d.solutionFolder readPath values }
  | .configFile => return { d with settingsFile := ← single d.settingsFile readPath values }
  | .cacheDir => return { d with cacheFolder := ← single d.cacheFolder readPath values }
  | .recent => return { d with recent := ← single d.recent readCount values }
  | .logLevel => return { d with verbosity := ← single d.verbosity readVerbosity values }

/-- Take over the pending option. -/
def settle (d : Draft) : Except UsageError Draft :=
  match d.pending with
  | none => .ok d
  | some (k, values) => { d with pending := none }.give k values

/-- An option appears, perhaps with a value attached. -/
def begin (d : Draft) (k : Key) (attached : Option String) : Except UsageError Draft :=
  match attached with
  | some value => do (← d.settle).give k [value]
  | none => do return { ← d.settle with pending := some (k, []) }

/-- A flag appears. It ends the reading unless the option before it is wrong. -/
def flag (d : Draft) (f : UsageError) : Except UsageError Draft := do
  let _ ← d.settle
  throw f

/-- A word that belongs to the pending option, if that takes one more value. -/
def takeBare (d : Draft) (word : String) : Except UsageError Draft :=
  match d.pending with
  | some (k, values) =>
    if k = .inputFiles ∨ values = [] then
      .ok { d with pending := some (k, values ++ [word]) }
    else .error .unknownArgument
  | none => .error .unknownArgument

/-- A long name, perhaps with a value. -/
def takeName (d : Draft) (name : String) (attached : Option String) : Except UsageError Draft :=
  match Key.ofName? name, flagOfName? name with
  | some k, _ => d.begin k attached
  | none, some f => if attached.isSome then .error .needlessValue else d.flag f
  | none, none => .error .unknownArgument

/-- A letter and what follows it. -/
def takeLetter (d : Draft) (c : Char) (rest : List Char) : Except UsageError Draft :=
  match Key.ofLetter? c, flagOfLetter? c with
  | some k, _ =>
    d.begin k <|
      match rest with
      | [] => none
      | '=' :: value => some (String.ofList value)
      | value => some (String.ofList value)
  | none, some f => d.flag f
  | none, none => .error .unknownArgument

/-- One more word. -/
def take (d : Draft) (word : String) : Except UsageError Draft :=
  if d.ended then .error .unknownArgument
  else
    match word.toList with
    | ['-', '-'] => .ok { d with ended := true }
    | '-' :: '-' :: cs =>
      let name := String.ofList (cs.takeWhile (· ≠ '='))
      match cs.dropWhile (· ≠ '=') with
      | [] => d.takeName name none
      | _ :: value => d.takeName name (some (String.ofList value))
    | '-' :: c :: rest => d.takeLetter c rest
    | _ => d.takeBare word

/-- The arguments, if nothing is missing. -/
def finish (d : Draft) : Except UsageError Arguments := do
  let d ← d.settle
  match d.inputs, d.solutionFolder with
  | inputs@(_ :: _), some solutionFolder =>
    return {
      inputs
      solutionFolder
      settingsFile := d.settingsFile
      cacheFolder := d.cacheFolder
      recent := d.recent
      verbosity := d.verbosity.getD (some .info) }
  | _, _ => throw .missingRequired

end Draft

/-- The arguments that some words stand for. -/
def ofWords (words : List String) : Except UsageError Arguments := do
  (← words.foldlM Draft.take .empty).finish

end Arguments

end Guillotine
