import AnimationGrammar.CommandLine.Arguments
import AnimationGrammar.CommandLine.Report
import AnimationGrammar.Json.Writer
import AnimationGrammar.Schema.Catalogue
import AnimationGrammar.Settings.Store

/-!
The commands: validate files, write the schemas to files, print a schema.

A run is a function of the invocation and the files, and of the memory of the machine.  It gives the exit
code, what is printed on both streams, and the files after it.  A run that cannot go on is aborted: it keeps
what it has printed as errors and what it has written, and prints nothing else.
-/

namespace AnimationGrammar

/-- Why a run ended before its time. -/
inductive Abortion
  | badSettings (failure : SettingsFailure)
  | inaccessible (problem : FileProblem)
  /-- A document was read that has no value. -/
  | badDocument (problem : Yaml.FatalProblem)
  /-- Something that has to be printed has no text. -/
  | unwritable (problem : Json.WriteProblem)
  /-- The indent is beyond any count, or there is no memory for the text. -/
  | indentUncountable
  | indentTooLarge

/-- The class of errors that ended a run. -/
def Abortion.typeName : Abortion → String
  | badSettings (.invalid _) => "ValidationError"
  | badSettings (.inaccessible problem) => problem.typeName
  | inaccessible problem => problem.typeName
  | badDocument problem => problem.typeName
  | unwritable .notJson => "TypeError"
  | unwritable .longNumber => "ValueError"
  | indentUncountable => "OverflowError"
  | indentTooLarge => "MemoryError"

/-- What a run did. -/
structure Execution where
  exitCode : Nat
  /-- The lines on the two streams. -/
  output : List String
  errors : List String
  tree : FileTree
  aborted : Option Abortion := none

namespace Execution

def linesText (lines : List String) : String := String.join (lines.map (· ++ "\n"))

def abort (tree : FileTree) (errors : List String) (reason : Abortion) : Execution where
  exitCode := 1
  output := []
  errors
  tree
  aborted := some reason

end Execution

/-- For which values there is memory for the text, by the number of spaces that their parts are indented
by. -/
abbrev Memory := Nat → Value → Bool

/-- Memory for the text of every value. -/
def Memory.ample : Memory := fun _ _ => true

def jsonText (memory : Memory) (indent : Nat) (value : Value) : Except Abortion String :=
  if wordLimit ≤ indent then .error .indentUncountable
  else if !memory indent value then .error .indentTooLarge
  else
    match Json.write indent 0 value with
    | .ok text => .ok text
    | .error problem => .error (.unwritable problem)

/-- A file with what is reported of it and what the log says. -/
structure CheckedFile where
  path : String
  report : FileReport
  log : List LogEntry

/-- Load and validate a file.  A document with a fatal problem is not reported.  Of a file that could not be
loaded the log would say where in the program that was found; it is left out here. -/
def FileTree.checkFile (tree : FileTree) (path : FilePath) :
    Except Yaml.FatalProblem CheckedFile :=
  let loaded := tree.loadDocument path
  match loaded with
  | .error (.yaml (.fatal problem)) => .error problem
  | _ =>
      .ok {
        path := path.text
        report := reportOf loaded
        log := match loaded with
          | .ok document => validationLog document
          | .error _ => [] }

/-- Lines printed one after the other, and what kept further ones from being printed. -/
structure Transcript where
  lines : List String
  aborted : Option Abortion := none

namespace Transcript

/-- One transcript after another; nothing follows one that was cut short. -/
def andThen (first second : Transcript) : Transcript :=
  match first.aborted with
  | some _ => first
  | none => { second with lines := first.lines ++ second.lines }

/-- The lines printed for a file among the errors: what the log says of it, and the report on it unless
that is to be JSON. -/
def ofFile (level : LogLevel) (asJson : Bool) : Except Yaml.FatalProblem CheckedFile → Transcript
  | .error problem => ⟨[], some (.badDocument problem)⟩
  | .ok file =>
      let log := logLines level file.log
      if asJson then ⟨log, none⟩
      else
        ⟨log ++ file.report.printable.lines file.path,
          if file.report.isPrintable then none else some (.unwritable .longNumber)⟩

def ofFiles (level : LogLevel) (asJson : Bool)
    (files : List (Except Yaml.FatalProblem CheckedFile)) : Transcript :=
  (files.map (ofFile level asJson)).foldr andThen ⟨[], none⟩

end Transcript

def runValidate (memory : Memory) (level : LogLevel) (indent : Nat) (files : List String)
    (asJson : Bool) (tree : FileTree) : Execution :=
  let found := files.map fun file => tree.checkFile (.ofText file)
  let transcript := Transcript.ofFiles level asJson found
  match transcript.aborted with
  | some reason => .abort tree transcript.lines reason
  | none =>
      let checked := found.filterMap Except.toOption
      let clean := checked.all (·.report.isClean)
      let exitCode := if clean then 0 else 1
      let errors := transcript.lines
      if asJson then
        match jsonText memory indent (.list (checked.map fun file => file.report.entry file.path)) with
        | .ok text => { exitCode, output := [text], errors, tree }
        | .error reason => .abort tree errors reason
      else
        { exitCode
          output :=
            if clean then [integerText files.length ++ " file(s) validated successfully."] else []
          errors
          tree }

/-- The files with schemas written to a folder, up to the first that could not be written. -/
def FileTree.writeSchemas (memory : Memory) (indent : Nat) (folder : FilePath) (tree : FileTree) :
    List SchemaName → FileTree × Option Abortion
  | [] => (tree, none)
  | name :: rest =>
      match jsonText memory indent name.schema with
      | .error reason => (tree, some reason)
      | .ok text =>
          match tree.writeText (folder.child name.fileName) text with
          | .error problem => (tree, some (.inaccessible problem))
          | .ok tree => writeSchemas memory indent folder tree rest

def runExport (memory : Memory) (indent : Nat) (folder : FilePath) (tree : FileTree) : Execution :=
  match tree.ensureFolders folder with
  | .error problem => .abort tree [] (.inaccessible problem)
  | .ok tree =>
      match tree.writeSchemas memory indent folder SchemaName.all with
      | (tree, some reason) => .abort tree [] reason
      | (tree, none) =>
          { exitCode := 0, output := ["Exported schemas to " ++ folder.text], errors := [], tree }

def runSchema (memory : Memory) (indent : Nat) (name : String) (tree : FileTree) : Execution :=
  match SchemaName.ofLabel? name with
  | some known =>
      match jsonText memory indent known.schema with
      | .ok text => { exitCode := 0, output := [text], errors := [], tree }
      | .error reason => .abort tree [] reason
  | none =>
      { exitCode := 2, output := [], errors := ["[ERROR] " ++ unknownSchemaMessage name], tree }

def Invocation.runWith (memory : Memory) (invocation : Invocation) (settings : Settings)
    (tree : FileTree) : Execution :=
  if invocation.command.pathTexts.any fun text => '\x00' ∈ text.toList then
    .abort tree [] (.inaccessible .unusablePath)
  else
    match invocation.command with
    | .validate files asJson =>
        runValidate memory (settings.effectiveLevel invocation.verbose) settings.jsonIndent files asJson
          tree
    | .exportSchemas folder =>
        runExport memory settings.jsonIndent (.ofText (folder.getD settings.schemaDirectory)) tree
    | .schema name => runSchema memory settings.jsonIndent name tree

/-- Load the settings and carry out a command. -/
def Invocation.run (memory : Memory) (invocation : Invocation) (settingsPath : FilePath)
    (tree : FileTree) : Execution :=
  match Settings.load tree settingsPath with
  | .error failure => .abort tree [] (.badSettings failure)
  | .ok (settings, tree) => invocation.runWith memory settings tree

end AnimationGrammar
