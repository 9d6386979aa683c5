import Guillotine.Table

/-! A file system as a value: what stands at each location, and the folder in which relative paths
start. A location is the list of names on the way from the root; a path is a text that has to be
walked, and every folder on the way has to be there. -/
namespace Guillotine

/-- Why a file system refuses. -/
inductive FileError where
  | notFound
  | notFolder
  | isFolder
  | nameTooLong
  | invalidPath
  | notText
deriving DecidableEq, Repr

def FileError.message : FileError → String
  | notFound => "no such file or folder"
  | notFolder => "not a folder"
  | isFolder => "is a folder"
  | nameTooLong => "name too long"
  | invalidPath => "not a path"
  | notText => "not a text"

/-- What stands at a location. -/
inductive Node where
  | folder
  | file (bytes : ByteArray)

instance : DecidableEq Node
  | .folder, .folder => isTrue rfl
  | .folder, .file _ => isFalse nofun
  | .file _, .folder => isFalse nofun
  | .file a, .file b =>
    match ByteArray.instDecidableEq a b with
    | isTrue h => isTrue (congrArg Node.file h)
    | isFalse h => isFalse fun k => h (Node.file.inj k)

abbrev Location := List String

structure Disk where
  nodes : Table Location Node
  /-- The folder in which relative paths start. -/
  here : Location

namespace Disk

/-- What stands at a location, if anything does. The root is always a folder. -/
def at? (d : Disk) (l : Location) : Option Node :=
  if l = [] then some .folder else d.nodes.get? l

def insert (d : Disk) (l : Location) (n : Node) : Disk := { d with nodes := d.nodes.insert l n }

def erase (d : Disk) (l : Location) : Disk := { d with nodes := d.nodes.erase l }

/-! ### Walking along paths -/

/-- The longest name there can be, in bytes. -/
def maxNameSize : Nat := 255

/-- The longest path there can be, in bytes. -/
def maxPathSize : Nat := 4095

/-- Check that a text can be a path, wherever it leads: no zero byte is in it, and it is not too
long as a whole. -/
def checkPath (path : String) : Except FileError Unit :=
  if '\x00' ∈ path.toList then .error .invalidPath
  else if maxPathSize < path.utf8ByteSize then .error .nameTooLong
  else .ok ()

/-- Go from a location to the one that `name` stands for there. There has to be a folder, but
nothing has to stand at the end yet. -/
def step (d : Disk) (l : Location) (name : String) : Except FileError Location :=
  match d.at? l with
  | none => .error .notFound
  | some (.file _) => .error .notFolder
  | some .folder =>
    if name = "" ∨ name = "." then .ok l
    else if name = ".." then .ok l.dropLast
    else if maxNameSize < name.utf8ByteSize then .error .nameTooLong
    else .ok (l ++ [name])

/-- Where the walk along a path begins. -/
def origin (d : Disk) (path : String) : Location :=
  if path.startsWith "/" then [] else d.here

/-- The location that a path leads to. -/
def locate (d : Disk) (path : String) : Except FileError Location := do
  checkPath path
  if path = "" then .error .notFound
  else (path.splitOn "/").foldlM d.step (d.origin path)

/-- Whether something stands at the end of a path. -/
def present (d : Disk) (path : String) : Bool :=
  match d.locate path with
  | .ok l => (d.at? l).isSome
  | .error _ => false

/-! ### Files -/

/-- Check that a path leads to something that can be opened. A folder can. -/
def opens (d : Disk) (path : String) : Except FileError Unit := do
  match d.at? (← d.locate path) with
  | some _ => .ok ()
  | none => .error .notFound

def readBytes (d : Disk) (path : String) : Except FileError ByteArray := do
  match d.at? (← d.locate path) with
  | some (.file bytes) => .ok bytes
  | some .folder => .error .isFolder
  | none => .error .notFound

def readText (d : Disk) (path : String) : Except FileError String := do
  match String.fromUTF8? (← d.readBytes path) with
  | some s => .ok s
  | none => .error .notText

/-- Write a file in a folder, in place of one that is there. -/
def writeBytes (d : Disk) (path : String) (bytes : ByteArray) : Except FileError Disk := do
  let l ← d.locate path
  match d.at? l, d.at? l.dropLast with
  | some .folder, _ => .error .isFolder
  | _, some .folder => .ok (d.insert l (.file bytes))
  | _, some (.file _) => .error .notFolder
  | _, none => .error .notFound

def writeText (d : Disk) (path text : String) : Except FileError Disk :=
  d.writeBytes path text.toUTF8

def removeFile (d : Disk) (path : String) : Except FileError Disk := do
  let l ← d.locate path
  match d.at? l with
  | some (.file _) => .ok (d.erase l)
  | some .folder => .error .isFolder
  | none => .error .notFound

/-- Move a file to another path, in place of a file that is there. -/
def renameFile (d : Disk) (source target : String) : Except FileError Disk := do
  let s ← d.locate source
  let t ← d.locate target
  match d.at? s, d.at? t with
  | some (.file _), some .folder => .error .isFolder
  | some (.file bytes), _ => .ok ((d.erase s).insert t (.file bytes))
  | some .folder, _ => .error .isFolder
  | none, _ => .error .notFound

/-! ### Folders -/

/-- Go on to `name`, making a folder there if nothing stands there. -/
def stepMaking (d : Disk) (l : Location) (name : String) : Except FileError (Disk × Location) := do
  let l ← d.step l name
  match d.at? l with
  | some .folder => .ok (d, l)
  | some (.file _) => .error .notFolder
  | none => .ok (d.insert l .folder, l)

/-- Go along some names, making folders. What was made stays made when the way ends early. -/
def makeAlong (d : Disk) (l : Location) : List String → Disk × Except FileError Unit
  | [] => (d, .ok ())
  | name :: names =>
    match d.stepMaking l name with
    | .ok (d, l) => makeAlong d l names
    | .error e => (d, .error e)

/-- Make all folders along a path that are not there. The empty path asks for none. A path that
ends in `.` asks for those around the folder it names, which has to be there itself. -/
def makeFolders (d : Disk) (path : String) : Disk × Except FileError Unit :=
  if path = "" then (d, .ok ())
  else
    match checkPath path with
    | .error e => (d, .error e)
    | .ok () =>
      let names := path.splitOn "/"
      let (still, rest) := names.reverse.span fun n => n = "" ∨ n = "."
      if "." ∈ still then
        match d.makeAlong (d.origin path) rest.tail.reverse with
        | (d, .ok ()) => (d, (d.locate path).map fun _ => ())
        | r => r
      else d.makeAlong (d.origin path) names

end Disk

end Guillotine
