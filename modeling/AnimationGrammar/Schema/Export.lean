import AnimationGrammar.Grammar.Model
import AnimationGrammar.Schema.Keyword

/-!
The schema of a form.

`Form.schema` states in JSON-schema keywords what validation asks of a value.  Models become
definitions, and a schema refers to them by name.
-/

namespace AnimationGrammar

/-- The name of the definition that accepts every JSON value. -/
def anyJsonLabel : String := "JsonValue"

/-- A limit as a keyword; a limit that no double exceeds is left out. -/
def limitKeyword (keyword : Numeral → Keyword) (limit : Option Numeral) : Schema :=
  match limit with
  | none => []
  | some (.double (.infinite _)) => []
  | some limit => [keyword limit]

def Bounds.keywords (bounds : Bounds) : Schema :=
  limitKeyword .maximum bounds.atMost ++ limitKeyword .exclusiveMaximum bounds.below ++
    limitKeyword .minimum bounds.atLeast ++ limitKeyword .exclusiveMinimum bounds.above

def TextRule.keywords : TextRule → Schema
  | any => []
  | nonEmpty => [.minLength 1]
  | format kind => [.pattern kind]
  | animationId => [.pattern .slug, .minLength 6]

/-- Whether two schemas are written alike. -/
def Schema.isSame (a b : Schema) : Bool :=
  (Schema.render false a).canonicalText == (Schema.render false b).canonicalText

def withoutRepeats (schemas : List Schema) : List Schema :=
  schemas.foldl (fun kept schema => if kept.any schema.isSame then kept else kept ++ [schema]) []

mutual

def Form.schema : Form → Schema
  | .text rule => .type "string" :: rule.keywords
  | .number rule =>
      .type (if rule.whole then "integer" else "number") :: rule.bounds.keywords ++
        (if rule.nonZero then [.not [.const (.number (.integer 0))]] else [])
  | .literal [only] => [.const (.text only), .type "string"]
  | .literal choices => [.enum choices, .type "string"]
  | .flag => [.const (.boolean true), .type "boolean"]
  | .anyJson => [.ref anyJsonLabel]
  | .tuple positions distinct =>
      [.type "array", .minItems positions.length, .prefixItems (positionSchemas positions),
        .maxItems positions.length] ++ (if distinct then [.uniqueItems] else [])
  | .list item minLength unique =>
      [.type "array", .items item.schema] ++ (minLength.map Keyword.minItems).toList ++
        (if unique then [.uniqueItems] else [])
  | .dictionary key item =>
      .type "object" ::
        (match key with
          | .format kind => [.propertyNames [.pattern kind]]
          | _ => []) ++ [.additionalProperties item.schema]
  | .choice dispatch branches =>
      .oneOf (withoutRepeats (branchSchemas branches)) ::
        (match dispatch with
          | .type => [.discriminator "type" (branchNames branches)]
          | _ => [])
  | .model name => [.ref name.label]

def Form.positionSchemas : List Form → List Schema
  | [] => []
  | form :: rest => form.schema :: positionSchemas rest

def Form.branchSchemas : List (String × Form) → List Schema
  | [] => []
  | (_, form) :: rest => form.schema :: branchSchemas rest

/-- The models of the branches that are models, by label. -/
def Form.branchNames : List (String × Form) → List (String × String)
  | [] => []
  | (label, .model name) :: rest => (label, name.label) :: branchNames rest
  | _ :: rest => branchNames rest

end

/-- A name with its words capitalised, as titles are. -/
def titleOf (name : String) : String :=
  String.ofList ((capitalise false name.toList).dropWhile (· = ' '))
where
  /-- Blanks for underscores, and a capital for every letter that does not follow one. -/
  capitalise (inWord : Bool) : List Char → List Char
    | [] => []
    | '_' :: rest => ' ' :: capitalise false rest
    | c :: rest => (if inWord then c.toLower else c.toUpper) :: capitalise c.isAlpha rest

/-- Whether a schema stands for a definition, whose title it then does without. -/
def Form.isReference : Form → Bool
  | .model _ => true
  | .anyJson => true
  | _ => false

def Field.schema (field : Field) : Schema :=
  field.form.schema ++ (if field.required then [] else [.defaultNull]) ++
    (if field.form.isReference then [] else [.title (titleOf field.name)]) ++
    (field.description.map Keyword.description).toList

def ModelRule.keyword : ModelRule → Keyword
  | someKey => .minProperties 1
  | someDimension => .anyOf [[.required ["x"]], [.required ["y"]]]
  | orderedDelays => .dependentRequired "delayMax" ["delayMin"]

/-- That a field is not given together with those that it excludes. -/
def Field.exclusion (field : Field) : Schema :=
  match field.excludes with
  | [] => []
  | others =>
      [.not [.required [field.name], .anyOf (others.map fun other => [.required [other]])]]

def Definition.requiredNames (definition : Definition) : List String :=
  (definition.fields.filter (·.required)).map (·.name)

def ModelName.schema (name : ModelName) : Schema :=
  let definition := name.definition
  [.type "object", .properties (definition.fields.map fun field => (field.name, field.schema))] ++
    (match definition.requiredNames with
      | [] => []
      | names => [.required names]) ++
    (if definition.closed then [.noOtherProperties] else []) ++
    definition.rules.map ModelRule.keyword ++
    definition.fields.flatMap Field.exclusion ++
    [.title name.label] ++ (definition.description.map Keyword.description).toList

/-- A schema with the definitions that it needs. -/
structure SchemaDocument where
  root : Schema
  definitions : List (String × Schema)

namespace SchemaDocument

/-- The schema that is defined under a name. -/
def definitionOf? (name : String) : Option Schema :=
  if name = anyJsonLabel then some [] else (ModelName.ofLabel? name).map ModelName.schema

/-- The names reached from some names within a number of steps. -/
def reach : Nat → List String → List String
  | 0, names => names
  | steps + 1, names =>
      let next := names.flatMap fun name => Schema.references ((definitionOf? name).getD [])
      let fresh := (next.filter fun name => !(name ∈ names)).eraseDups
      if fresh.isEmpty then names else reach steps (names ++ fresh)

def reached (schema : Schema) : List String :=
  reach (ModelName.all.length + 1) (Schema.references schema).eraseDups

/-- A schema together with the definitions that it needs, sorted by name. -/
def closing (root : Schema) : SchemaDocument where
  root
  definitions :=
    (sortByName ((reached root).map fun name => (name, ()))).filterMap fun (name, _) =>
      (definitionOf? name).map fun schema => (name, schema)

/-- The document of a form.  A model that is referred to from nowhere else stands at the root. -/
def ofForm (form : Form) : SchemaDocument :=
  match form with
  | .model name =>
      if name.label ∈ reached name.schema then closing form.schema else closing name.schema
  | form => closing form.schema

def dialect : String := "https://json-schema.org/draft/2020-12/schema"

/-- The JSON object of a document, without the line that names the dialect. -/
def members (document : SchemaDocument) : List (String × Value) :=
  (if document.definitions.isEmpty then []
    else
      [("$defs", .object (document.definitions.map fun (name, schema) =>
        (name, Schema.render false schema)))]) ++
    sortByName (Schema.renderKeywords document.root)

end SchemaDocument

end AnimationGrammar
