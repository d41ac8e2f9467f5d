import AnimationGrammar.CommandLine.PathText
import AnimationGrammar.Files.FileTree
import AnimationGrammar.Json.Reader
import AnimationGrammar.Settings.Basic
import AnimationGrammar.Validation.Document
import AnimationGrammar.Yaml.Document

/-!
What is reported of a file: that it could not be loaded, or the issues found in it.
-/

namespace AnimationGrammar

/-- Why a file could not be loaded. -/
inductive LoadProblem
  | file (problem : FileProblem)
  | json (error : Json.ReadError)
  | yaml (problem : Yaml.Problem)

def LoadProblem.message : LoadProblem → String
  | file problem => problem.message
  | json error => error.message
  | yaml problem => problem.message

/-- Whether a file is read as YAML: its name says so, in letters of any case. -/
def isYamlPath (path : FilePath) : Bool :=
  String.ofList (path.suffix.toList.map Char.toLower) ∈ [".yaml", ".yml"]

/-- The document in a text.  A YAML document that says nothing is an empty object. -/
def readDocument (asYaml : Bool) (text : String) : Except LoadProblem Value :=
  if asYaml then
    match Yaml.read text with
    | .ok value => .ok (if value.isTruthy then value else .mapping [])
    | .error problem => .error (.yaml problem)
  else
    match Json.read text with
    | .ok value => .ok value
    | .error error => .error (.json error)

def FileTree.loadDocument (tree : FileTree) (path : FilePath) : Except LoadProblem Value :=
  match tree.readText path with
  | .error problem => .error (.file problem)
  | .ok text => readDocument (isYamlPath path) text

inductive FileReport
  | unreadable (message : String)
  | checked (issues : List Issue)

def reportOf : Except LoadProblem Value → FileReport
  | .error problem => .unreadable problem.message
  | .ok document => .checked (validate document)

namespace FileReport

def isClean : FileReport → Bool
  | unreadable _ => false
  | checked issues => issues.isEmpty

def errorLine (path message : String) : String := "[ERROR] " ++ path ++ ": " ++ message

def issueLine (path : String) (issue : Issue) : String :=
  errorLine path (pathText issue.path ++ ": " ++ issue.message ++ " (" ++ issue.kind.label ++ ")")

/-- The lines printed for a file: none for one that is clean. -/
def lines (path : String) : FileReport → List String
  | unreadable message => [errorLine path ("cannot parse: " ++ message)]
  | checked issues => issues.map (issueLine path)

/-- The issues that can be printed: those before the first whose path has a number too long to be
written. -/
def printable : FileReport → FileReport
  | unreadable message => unreadable message
  | checked issues => checked (issues.takeWhile fun issue => !issue.path.any (·.isLongNumber))

def isPrintable : FileReport → Bool
  | unreadable _ => true
  | checked issues => !issues.any fun issue => issue.path.any (·.isLongNumber)

def issueValue (issue : Issue) : Value :=
  .object
    [("kind", .text issue.kind.label), ("path", .list (issue.path.map .atom)),
     ("message", .text issue.message)]

def entry (path : String) : FileReport → Value
  | unreadable message =>
      .object [("file", .text path), ("success", .boolean false), ("error", .text message)]
  | checked [] => .object [("file", .text path), ("success", .boolean true)]
  | checked issues =>
      .object
        [("file", .text path), ("success", .boolean false), ("issues", .list (issues.map issueValue))]

end FileReport

structure LogEntry where
  level : LogLevel
  message : String

def LogEntry.line (entry : LogEntry) : String :=
  entry.level.label ++ " animcore.engine.validation: " ++ entry.message

/-- What the log says of a document: how each key went, and how all of them did. -/
def validationLog : Value → List LogEntry
  | .mapping entries =>
      let keyEntries := entries.filterMap fun entry =>
        if entry.1 = .text tokenImagesKey then none
        else
          some (LogEntry.mk .debug ("Validated key " ++ entry.1.literal ++ ": " ++
            integerText (blockIssues entries entry).length ++ " issue(s)"))
      let issues := validate (.mapping entries)
      let summary : LogEntry :=
        if issues.isEmpty then
          ⟨.debug, "Animation data valid (" ++ integerText entries.length ++ " key(s))"⟩
        else
          ⟨.info, "Animation data has " ++ integerText issues.length ++ " issue(s) across " ++
            integerText entries.length ++ " key(s)"⟩
      keyEntries ++ [summary]
  | _ => []

/-- The lines of the log from some level on. -/
def logLines (level : LogLevel) (log : List LogEntry) : List String :=
  (log.filter fun entry => level.severity ≤ entry.level.severity).map (·.line)

end AnimationGrammar
