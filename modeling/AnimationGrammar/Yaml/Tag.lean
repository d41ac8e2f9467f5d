import AnimationGrammar.Yaml.Moment
import AnimationGrammar.Yaml.Number

/-!
Tags: what kind of value a node stands for.

A node may name its tag.  A plain scalar that names none has the tag that its spelling suggests, and
any other node the tag of its shape.
-/

namespace AnimationGrammar.Yaml

/-- The kinds of values that nodes stand for. -/
inductive Tag
  | null | boolean | integer | double | moment | text | binary
  | list | mapping
  /-- A mapping of which only the keys count. -/
  | set
  /-- A list of mappings of one entry each, read as pairs. -/
  | pairs
  /-- The key of a mapping whose value holds further entries of it. -/
  | merge
  /-- The key of a mapping under which the mapping holds its main value. -/
  | main
  /-- A tag without a meaning here. -/
  | unknown
  deriving DecidableEq

namespace Tag

/-- What the names of the standard tags start with. -/
def standard : String := "tag:yaml.org,2002:"

def standardNames : List (String × Tag) :=
  [("null", null), ("bool", boolean), ("int", integer), ("float", double), ("timestamp", moment),
   ("str", text), ("binary", binary), ("seq", list), ("map", mapping), ("set", set),
   ("omap", pairs), ("pairs", pairs), ("merge", merge), ("value", main)]

/-- The tag of a full name. -/
def ofName (name : String) : Tag :=
  ((standardNames.map fun (short, tag) => (standard ++ short, tag)).lookup name).getD unknown

def nullTexts : List String := ["", "~", "null", "Null", "NULL"]

def booleanTexts : List String :=
  ["yes", "Yes", "YES", "no", "No", "NO", "true", "True", "TRUE", "false", "False", "FALSE",
   "on", "On", "ON", "off", "Off", "OFF"]

/-- The tag that the spelling of a plain scalar suggests. -/
def ofSpelling (spelled : String) : Tag :=
  if spelled ∈ booleanTexts then boolean
  else if isDoubleText spelled.toList then double
  else if isIntegerText spelled.toList then integer
  else if spelled = "<<" then merge
  else if spelled ∈ nullTexts then null
  else if isMomentText spelled.toList then moment
  else if spelled = "=" then main
  else text

/-- The tag of a scalar by its text, with or without a line end after it. -/
def ofText (scalar : String) : Tag :=
  if scalar = "\n" then text
  else if scalar.toList.getLast? == some '\n' then ofSpelling (String.ofList scalar.toList.dropLast)
  else ofSpelling scalar

end Tag

end AnimationGrammar.Yaml
