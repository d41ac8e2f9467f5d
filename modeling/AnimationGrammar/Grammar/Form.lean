import AnimationGrammar.Number.Numeral
import AnimationGrammar.Text.Format
import AnimationGrammar.Value.Basic

/-!
Forms: what a value has to look like.

The grammar of configurations is data.  A `Form` describes a value; where an object has to follow a
model, the form only names it, and `Definition` says what the model asks of an object.  Validation and
the exported schema both read these descriptions, so neither knows a rule that the other lacks.
-/

namespace AnimationGrammar

inductive TextRule
  | any
  | nonEmpty
  | format (format : TextFormat)
  /-- A slug that is long enough to be unique. -/
  | animationId
  deriving DecidableEq

/-- Limits on numbers. -/
structure Bounds where
  atMost : Option Numeral := none
  below : Option Numeral := none
  atLeast : Option Numeral := none
  above : Option Numeral := none
  deriving DecidableEq

structure NumberRule where
  bounds : Bounds := {}
  /-- Fractions are refused and the result is an integer. -/
  whole : Bool := false
  nonZero : Bool := false
  deriving DecidableEq

/-- What a union looks at to pick one of its branches. -/
inductive Dispatch
  | kind
  | operator
  /-- The text under the key `type`. -/
  | type
  | length
  deriving DecidableEq

/-- The form of a value. -/
inductive Form
  | text (rule : TextRule)
  | number (rule : NumberRule)
  /-- One of some given texts. -/
  | literal (choices : List String)
  /-- A setting that is either absent or true. -/
  | flag
  | anyJson
  /-- A list of fixed length, with a form for each position; its items may have to differ. -/
  | tuple (positions : List Form) (distinct : Bool)
  /-- A list of any length from a minimum on; its items may have to differ. -/
  | list (item : Form) (minLength : Option Nat) (unique : Bool)
  | dictionary (key : TextRule) (item : Form)
  /-- A union: the label found by the dispatch picks the branch. -/
  | choice (dispatch : Dispatch) (branches : List (String × Form))
  | model (name : ModelName)

/-- A key of a model. -/
structure Field where
  name : String
  form : Form
  required : Bool := false
  /-- Keys that may not be given together with this one. -/
  excludes : List String := []
  description : Option String := none

/-- A condition on an object whose fields are all in order. -/
inductive ModelRule
  /-- At least one key is given. -/
  | someKey
  /-- At least one of the keys `x` and `y` is given. -/
  | someDimension
  /-- The key `delayMax` needs a smaller `delayMin`. -/
  | orderedDelays
  deriving DecidableEq

/-- What a model asks of an object. -/
structure Definition where
  fields : List Field
  rules : List ModelRule := []
  /-- Whether keys outside of the fields are refused. -/
  closed : Bool := true
  description : Option String := none

namespace Form

/-- A union on the kind of the value. -/
def byKind (branches : List (Kind × Form)) : Form :=
  .choice .kind (branches.map fun (kind, form) => (kind.label, form))

/-- A non-empty list of items that all differ. -/
def uniqueList (item : Form) : Form := .list item (some 1) true

end Form

namespace Definition

def field? (definition : Definition) (name : String) : Option Field :=
  definition.fields.find? (·.name == name)

def fieldNames (definition : Definition) : List String := definition.fields.map (·.name)

end Definition

end AnimationGrammar
