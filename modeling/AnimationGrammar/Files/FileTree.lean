import AnimationGrammar.Files.FilePath
import AnimationGrammar.Text.Quoted
import AnimationGrammar.Text.Utf8

/-!
Files and folders.

A tree says what stands at every place that is taken.  A path is followed step by step from the root
or from the current folder; a step to the folder above leads out of the folder that has been reached,
so everything before it has to be a folder.
-/

namespace AnimationGrammar

/-- The names that lead from the root to a file or a folder. -/
abbrev Place := List String

/-- What stands at a place. -/
inductive Entry
  | folder
  | file (bytes : List Nat)
  deriving DecidableEq

/-- What stands in the way of reading or writing at a path. -/
inductive Obstacle
  | missing
  | taken
  | notFolder
  | isFolder
  | nameTooLong
  deriving DecidableEq

/-- The number that an obstacle is known by. -/
def Obstacle.code : Obstacle → Nat
  | missing => 2
  | taken => 17
  | notFolder => 20
  | isFolder => 21
  | nameTooLong => 36

def Obstacle.description : Obstacle → String
  | missing => "No such file or directory"
  | taken => "File exists"
  | notFolder => "Not a directory"
  | isFolder => "Is a directory"
  | nameTooLong => "File name too long"

/-- Why nothing could be read or written at a path. -/
inductive FileProblem
  | blocked (obstacle : Obstacle) (path : FilePath)
  /-- The path has a character that no path can have. -/
  | unusablePath
  | undecodable (error : Utf8.DecodeError)
  deriving DecidableEq

def FileProblem.message : FileProblem → String
  | blocked obstacle path =>
      "[Errno " ++ integerText obstacle.code ++ "] " ++ obstacle.description ++ ": " ++
        namedQuoted path.text
  | unusablePath => "embedded null byte"
  | undecodable error => error.message

def FileProblem.typeName : FileProblem → String
  | blocked .missing _ => "FileNotFoundError"
  | blocked .taken _ => "FileExistsError"
  | blocked .notFolder _ => "NotADirectoryError"
  | blocked .isFolder _ => "IsADirectoryError"
  | blocked .nameTooLong _ => "OSError"
  | unusablePath => "ValueError"
  | undecodable _ => "UnicodeDecodeError"

/-- Line ends of all kinds as single line feeds. -/
def unifyLineEnds : List Char → List Char
  | [] => []
  | '\r' :: '\n' :: rest => '\n' :: unifyLineEnds rest
  | '\r' :: rest => '\n' :: unifyLineEnds rest
  | c :: rest => c :: unifyLineEnds rest

/-- How many bytes a name and a whole path may take. -/
def nameLimit : Nat := 255

def pathLimit : Nat := 4095

/-- Files and folders, and the folder in which paths start. -/
structure FileTree where
  current : Place
  entries : List (Place × Entry)

namespace FileTree

/-- What stands at a place; the root is a folder. -/
def entry? (tree : FileTree) (place : Place) : Option Entry :=
  if place.isEmpty then some .folder else tree.entries.lookup place

def put (tree : FileTree) (place : Place) (entry : Entry) : FileTree :=
  { tree with entries := go tree.entries }
where
  go : List (Place × Entry) → List (Place × Entry)
    | [] => [(place, entry)]
    | (other, old) :: rest =>
        if other = place then (place, entry) :: rest else (other, old) :: go rest

/-- The tree with folders at a place and everywhere above it. -/
def putFolders (tree : FileTree) (place : Place) : FileTree :=
  ((List.range (place.length + 1)).map place.take).foldl
    (fun tree above => if (tree.entry? above).isSome then tree else tree.put above .folder) tree

def empty (current : Place) : FileTree := putFolders ⟨current, []⟩ current

/-- Where steps lead from a place, and what stands there.  Only the last step may lead to nothing. -/
def follow (tree : FileTree) (place : Place) : List String → Except Obstacle (Place × Option Entry)
  | [] => .ok (place, tree.entry? place)
  | step :: rest =>
      match tree.entry? place with
      | none => .error .missing
      | some (.file _) => .error .notFolder
      | some .folder =>
          if step = ".." then follow tree place.dropLast rest
          else if nameLimit < step.utf8ByteSize then .error .nameTooLong
          else follow tree (place ++ [step]) rest

/-- The place that a path leads to, and what stands there. -/
def locate (tree : FileTree) (path : FilePath) : Except FileProblem (Place × Option Entry) :=
  if '\x00' ∈ path.text.toList then .error .unusablePath
  else if pathLimit < path.text.utf8ByteSize then .error (.blocked .nameTooLong path)
  else
    match tree.follow (if path.root = "" then tree.current else []) path.steps with
    | .ok found => .ok found
    | .error obstacle => .error (.blocked obstacle path)

def readBytes (tree : FileTree) (path : FilePath) : Except FileProblem (List Nat) :=
  match tree.locate path with
  | .error problem => .error problem
  | .ok (_, none) => .error (.blocked .missing path)
  | .ok (_, some .folder) => .error (.blocked .isFolder path)
  | .ok (_, some (.file bytes)) => .ok bytes

def readText (tree : FileTree) (path : FilePath) : Except FileProblem String :=
  match tree.readBytes path with
  | .error problem => .error problem
  | .ok bytes =>
      match Utf8.decode bytes with
      | .ok text => .ok (String.ofList (unifyLineEnds text.toList))
      | .error error => .error (.undecodable error)

/-- Whether there is anything at a path.  That a name is too long cannot be overlooked. -/
def holds (tree : FileTree) (path : FilePath) : Except FileProblem Bool :=
  match tree.locate path with
  | .ok (_, found) => .ok found.isSome
  | .error (.blocked .nameTooLong path) => .error (.blocked .nameTooLong path)
  | .error _ => .ok false

/-- The tree with a text in the file at a path. -/
def writeText (tree : FileTree) (path : FilePath) (text : String) : Except FileProblem FileTree :=
  match tree.locate path with
  | .error problem => .error problem
  | .ok (_, some .folder) => .error (.blocked .isFolder path)
  | .ok (place, _) => .ok (tree.put place (.file (Utf8.encode text)))

def makeFolder (tree : FileTree) (path : FilePath) : Except FileProblem FileTree :=
  match tree.locate path with
  | .error problem => .error problem
  | .ok (_, some _) => .error (.blocked .taken path)
  | .ok (place, none) => .ok (tree.put place .folder)

/-- The tree with a folder at a path, which may be there already. -/
def ensureFolder (tree : FileTree) (path : FilePath) : Except FileProblem FileTree :=
  match tree.makeFolder path with
  | .ok tree => .ok tree
  | .error (.blocked .taken path) =>
      match tree.locate path with
      | .ok (_, some .folder) => .ok tree
      | _ => .error (.blocked .taken path)
  | .error problem => .error problem

/-- The tree with folders at a path and wherever it leads through.  The steps of the path are given
from the last one on. -/
def ensureSteps (root : String) (tree : FileTree) : List String → Except FileProblem FileTree
  | [] => tree.ensureFolder ⟨root, []⟩
  | step :: above =>
      let path : FilePath := ⟨root, (step :: above).reverse⟩
      match tree.ensureFolder path with
      | .error (.blocked .missing _) =>
          match ensureSteps root tree above with
          | .ok tree => tree.ensureFolder path
          | .error problem => .error problem
      | outcome => outcome

/-- The tree with folders at a path and wherever it leads through. -/
def ensureFolders (tree : FileTree) (path : FilePath) : Except FileProblem FileTree :=
  tree.ensureSteps path.root path.steps.reverse

/-- The files below the current folder by their paths from there. -/
def currentFiles (tree : FileTree) : List (String × List Nat) :=
  tree.entries.filterMap fun (place, entry) =>
    match entry with
    | .folder => none
    | .file bytes =>
        if tree.current.isPrefixOf place then
          some ("/".intercalate (place.drop tree.current.length), bytes)
        else none

end FileTree

end AnimationGrammar
