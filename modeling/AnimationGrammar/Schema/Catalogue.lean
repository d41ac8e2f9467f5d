import AnimationGrammar.Schema.Description

/-!
The schemas that are published, by name.
-/

namespace AnimationGrammar

/-- The grammars that have a schema. -/
inductive SchemaName
  | animations
  | tokenImages
  deriving DecidableEq

namespace SchemaName

def label : SchemaName → String
  | animations => "animations"
  | tokenImages => "tokenImages"

/-- Every grammar with a schema, in the order of their labels. -/
def all : List SchemaName := [animations, tokenImages]

def ofLabel? (label : String) : Option SchemaName := all.find? (·.label == label)

/-- The name of the file that a schema is published in. -/
def fileName (name : SchemaName) : String := name.label ++ ".schema.json"

def form : SchemaName → Form
  | animations => .animations
  | tokenImages => .model .tokenImages

end SchemaName

/-- The published schema of a form: the dialect, and the schema with descriptions for editors. -/
def Form.publishedSchema (form : Form) : Value :=
  let bare := Value.object (SchemaDocument.ofForm form).members
  let described := match bare.describe with
    | .ok described => described
    | .error _ => bare
  match described with
  | .mapping entries => .mapping ((.text "$schema", .text SchemaDocument.dialect) :: entries)
  | other => other

def SchemaName.schema (name : SchemaName) : Value := name.form.publishedSchema

def unknownSchemaMessage (name : String) : String :=
  "Unknown schema name: " ++ namedQuoted name ++ " (expected one of " ++
    (textsValue (SchemaName.all.map (·.label))).literal ++ ")"

end AnimationGrammar
