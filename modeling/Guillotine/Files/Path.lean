/-! Paths as texts: joining them, and the parts of their last name. -/
namespace Guillotine

namespace Path

/-- A path below a folder; one that starts at the root stays what it is. -/
def join (folder path : String) : String :=
  if path.startsWith "/" then path
  else if folder = "" ∨ folder.endsWith "/" then folder ++ path
  else folder ++ "/" ++ path

/-- The last name of a path, unless it ends at the root or goes up. -/
def lastName? (path : String) : Option String :=
  match (path.splitOn "/").reverse.filter fun n => n ≠ "" && n ≠ "." with
  | name :: _ => if name = ".." then none else some name
  | [] => none

/-- A name without what follows its last dot. A dot in front begins no ending. -/
def withoutEnding (name : String) : String :=
  match name.toList.reverse.dropWhile (· ≠ '.') with
  | _ :: cs@(_ :: _) => String.ofList cs.reverse
  | _ => name

/-- The last name of a path without its ending. -/
def stem? (path : String) : Option String := (lastName? path).map withoutEnding

/-- The path of a location. -/
def ofNames (names : List String) : String := "/" ++ "/".intercalate names

end Path

end Guillotine
