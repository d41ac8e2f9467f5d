import AnimationGrammar.Number.Layout
import AnimationGrammar.Text.Quoted

/-!
Settings: how much is logged, where schemas go and how far JSON output is indented.
-/

namespace AnimationGrammar

/-- From which severity on messages are logged. -/
inductive LogLevel
  | debug
  | info
  | warning
  | error
  deriving DecidableEq

namespace LogLevel

def label : LogLevel → String
  | debug => "DEBUG"
  | info => "INFO"
  | warning => "WARNING"
  | error => "ERROR"

def severity : LogLevel → Nat
  | debug => 10
  | info => 20
  | warning => 30
  | error => 40

/-- Every level, in ascending order. -/
def all : List LogLevel := [debug, info, warning, error]

def ofLabel? (label : String) : Option LogLevel := all.find? (·.label == label)

end LogLevel

/-- The settings of the program. -/
structure Settings where
  logLevel : LogLevel := .warning
  /-- Where schemas are written when no other place is named. -/
  schemaDirectory : String := "docs/schemas"
  jsonIndent : Nat := 2
  deriving DecidableEq

namespace Settings

/-- The level that applies; verbose runs log everything. -/
def effectiveLevel (settings : Settings) (verbose : Bool) : LogLevel :=
  if verbose then .debug else settings.logLevel

/-- The settings as they are written to a file. -/
def text (settings : Settings) : String :=
  "\x7b\n  \"log_level\": " ++ plainQuoted settings.logLevel.label ++
    ",\n  \"schema_dir\": " ++ plainQuoted settings.schemaDirectory ++
    ",\n  \"json_indent\": " ++ integerText settings.jsonIndent ++ "\n\x7d"

end Settings

end AnimationGrammar
