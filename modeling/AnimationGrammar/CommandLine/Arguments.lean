/-!
The arguments of the program, and the command that they ask for.

Options start with a dash.  Two dashes end the options of the program, and after the name of a command
those of the command; what follows them is taken as it is.
-/

namespace AnimationGrammar

/-- What the program is asked to do. -/
inductive Command
  | validate (files : List String) (asJson : Bool)
  | exportSchemas (folder : Option String)
  | schema (name : String)
  deriving DecidableEq

/-- A command and how much to log. -/
structure Invocation where
  verbose : Bool
  command : Command
  deriving DecidableEq

/-- Whether an argument is an option; a dash by itself is none. -/
def isOption (argument : String) : Bool := argument.startsWith "-" && 1 < argument.length

/-- Whether an argument asks for a verbose run, in short letters as often as one likes. -/
def asksVerbose (argument : String) : Bool :=
  argument = "--verbose" ||
    (match argument.toList with
      | '-' :: letters => !letters.isEmpty && letters.all (· == 'v')
      | _ => false)

namespace Command

/-- The files to validate, and whether the report is to be JSON. -/
def validateArguments? : List String → Option (List String × Bool)
  | [] => some ([], false)
  | "--" :: rest => some (rest, false)
  | argument :: rest =>
      match validateArguments? rest with
      | none => none
      | some (files, asJson) =>
          if argument = "--json" then some (files, true)
          else if isOption argument then none
          else some (argument :: files, asJson)

/-- The folder to write schemas to; the last one that is named holds. -/
def exportArguments? (found : Option String) : List String → Option (Option String)
  | [] => some found
  | ["--"] => some found
  | ["--out"] => none
  | "--out" :: folder :: rest => exportArguments? (some folder) rest
  | argument :: rest =>
      if argument.startsWith "--out=" then
        exportArguments? (some (String.ofList (argument.toList.drop 6))) rest
      else none

def schemaArgument? : List String → Option String
  | ["--", name] => some name
  | [name, "--"] => if isOption name then none else some name
  | [name] => if isOption name then none else some name
  | _ => none

def ofArguments? : List String → Option Command
  | "validate" :: arguments =>
      match validateArguments? arguments with
      | some (file :: files, asJson) => some (.validate (file :: files) asJson)
      | _ => none
  | "export-schemas" :: arguments => (exportArguments? none arguments).map .exportSchemas
  | "schema" :: arguments => (schemaArgument? arguments).map .schema
  | _ => none

def pathTexts : Command → List String
  | validate files _ => files
  | exportSchemas folder => folder.toList
  | schema _ => []

end Command

def Invocation.ofArguments? : List String → Option Invocation
  | [] => none
  | "--" :: rest => (Command.ofArguments? rest).map (⟨false, ·⟩)
  | argument :: rest =>
      if asksVerbose argument then (ofArguments? rest).map fun found => { found with verbose := true }
      else (Command.ofArguments? (argument :: rest)).map (⟨false, ·⟩)

end AnimationGrammar
