/-!
Paths of files.

A path starts at the root or at the current folder, and names one step after the other.  Steps that
lead nowhere are not kept; steps to the folder above are, because where they lead depends on the
files.
-/

namespace AnimationGrammar

structure FilePath where
  /-- The slashes that it starts with: none, one, or exactly two. -/
  root : String
  steps : List String
  deriving DecidableEq

namespace FilePath

/-- The path that a text spells.  Two slashes at the start are kept, more of them count as one. -/
def ofText (text : String) : FilePath where
  root :=
    match (text.toList.takeWhile (· == '/')).length with
    | 0 => ""
    | 2 => "//"
    | _ => "/"
  steps :=
    ((text.toList.splitOn '/').filter fun part => !part.isEmpty && part != ['.']).map
      String.ofList

/-- The text of a path; the one without steps is a point. -/
def text (path : FilePath) : String :=
  if path.root = "" && path.steps.isEmpty then "." else path.root ++ "/".intercalate path.steps

def child (path : FilePath) (name : String) : FilePath :=
  { path with steps := path.steps ++ [name] }

def parent (path : FilePath) : FilePath := { path with steps := path.steps.dropLast }

/-- The last step from its last point on, if that is neither at its start nor at its end. -/
def suffix (path : FilePath) : String :=
  let name := ((path.steps.getLast?).getD "").toList
  let ending := (name.reverse.takeWhile (· ≠ '.')).reverse
  if ending.isEmpty || name.length ≤ ending.length + 1 then "" else String.ofList ('.' :: ending)

end FilePath

end AnimationGrammar
