import AnimationGrammar.Text.Format
import AnimationGrammar.Value.Canonical

/-!
JSON schemas.

A schema is a list of keywords.  `Schema.render` writes it as a JSON value, with the keys of every
schema in alphabetical order.
-/

namespace AnimationGrammar

/-- A keyword of a schema with its value; a schema is a list of keywords. -/
inductive Keyword
  | type (name : String)
  | const (value : Atom)
  | enum (choices : List String)
  /-- The schema of this name among the definitions. -/
  | ref (name : String)
  | minimum (limit : Numeral)
  | maximum (limit : Numeral)
  | exclusiveMinimum (limit : Numeral)
  | exclusiveMaximum (limit : Numeral)
  | minLength (length : Nat)
  | pattern (format : TextFormat)
  | items (schema : List Keyword)
  | prefixItems (schemas : List (List Keyword))
  | minItems (count : Nat)
  | maxItems (count : Nat)
  | uniqueItems
  | properties (schemas : List (String × List Keyword))
  | required (names : List String)
  /-- No properties beside those listed. -/
  | noOtherProperties
  | additionalProperties (schema : List Keyword)
  | propertyNames (schema : List Keyword)
  | minProperties (count : Nat)
  | dependentRequired (name : String) (others : List String)
  | oneOf (schemas : List (List Keyword))
  | anyOf (schemas : List (List Keyword))
  | not (schema : List Keyword)
  /-- A hint for readers: which schema applies is told by a property. -/
  | discriminator (property : String) (schemas : List (String × String))
  | title (text : String)
  | description (text : String)
  | defaultNull

abbrev Schema := List Keyword

def definitionPath (name : String) : String := "#/$defs/" ++ name

def Keyword.name : Keyword → String
  | type _ => "type"
  | const _ => "const"
  | enum _ => "enum"
  | ref _ => "$ref"
  | minimum _ => "minimum"
  | maximum _ => "maximum"
  | exclusiveMinimum _ => "exclusiveMinimum"
  | exclusiveMaximum _ => "exclusiveMaximum"
  | minLength _ => "minLength"
  | pattern _ => "pattern"
  | items _ => "items"
  | prefixItems _ => "prefixItems"
  | minItems _ => "minItems"
  | maxItems _ => "maxItems"
  | uniqueItems => "uniqueItems"
  | properties _ => "properties"
  | required _ => "required"
  | noOtherProperties => "additionalProperties"
  | additionalProperties _ => "additionalProperties"
  | propertyNames _ => "propertyNames"
  | minProperties _ => "minProperties"
  | dependentRequired _ _ => "dependentRequired"
  | oneOf _ => "oneOf"
  | anyOf _ => "anyOf"
  | not _ => "not"
  | discriminator _ _ => "discriminator"
  | title _ => "title"
  | description _ => "description"
  | defaultNull => "default"

def naturalValue (n : Nat) : Value := .integer n

def textsValue (texts : List String) : Value := .list (texts.map .text)

namespace Schema

/--
An object whose members are schemas or keywords, in the order of a schema's keywords: alphabetical,
but for a property that is itself called `default`, which stays as it was put together.
-/
def arrange (keepOrder : Bool) (members : List (String × Value)) : Value :=
  .object (if keepOrder then members else sortByName members)

mutual

/-- The JSON value of a schema; the flag says that it stands under the name `default`. -/
def render (keepOrder : Bool) (schema : List Keyword) : Value :=
  arrange keepOrder (renderKeywords schema)

def renderKeywords : List Keyword → List (String × Value)
  | [] => []
  | keyword :: rest => (keyword.name, renderKeyword keyword) :: renderKeywords rest

def renderKeyword : Keyword → Value
  | .type name => .text name
  | .const value => .atom value
  | .enum choices => textsValue choices
  | .ref name => .text (definitionPath name)
  | .minimum limit => .number limit
  | .maximum limit => .number limit
  | .exclusiveMinimum limit => .number limit
  | .exclusiveMaximum limit => .number limit
  | .minLength length => naturalValue length
  | .pattern format => .text format.pattern.source
  | .items schema => render false schema
  | .prefixItems schemas => .list (renderAll schemas)
  | .minItems count => naturalValue count
  | .maxItems count => naturalValue count
  | .uniqueItems => .boolean true
  | .properties schemas => .object (renderProperties schemas)
  | .required names => textsValue names
  | .noOtherProperties => .boolean false
  | .additionalProperties schema => render false schema
  | .propertyNames schema => render false schema
  | .minProperties count => naturalValue count
  | .dependentRequired name others => .object [(name, textsValue others)]
  | .oneOf schemas => .list (renderAll schemas)
  | .anyOf schemas => .list (renderAll schemas)
  | .not schema => render false schema
  | .discriminator property schemas =>
      .object
        [("mapping",
          arrange false (schemas.map fun (label, name) => (label, .text (definitionPath name)))),
         ("propertyName", .text property)]
  | .title text => .text text
  | .description text => .text text
  | .defaultNull => .null

def renderAll : List (List Keyword) → List Value
  | [] => []
  | schema :: rest => render false schema :: renderAll rest

def renderProperties : List (String × List Keyword) → List (String × Value)
  | [] => []
  | (name, schema) :: rest => (name, render (name == "default") schema) :: renderProperties rest

end

mutual

def references : List Keyword → List String
  | [] => []
  | keyword :: rest => keywordReferences keyword ++ references rest

def keywordReferences : Keyword → List String
  | .ref name => [name]
  | .items schema => references schema
  | .prefixItems schemas => allReferences schemas
  | .properties schemas => propertyReferences schemas
  | .additionalProperties schema => references schema
  | .propertyNames schema => references schema
  | .oneOf schemas => allReferences schemas
  | .anyOf schemas => allReferences schemas
  | .not schema => references schema
  | _ => []

def allReferences : List (List Keyword) → List String
  | [] => []
  | schema :: rest => references schema ++ allReferences rest

def propertyReferences : List (String × List Keyword) → List String
  | [] => []
  | (_, schema) :: rest => references schema ++ propertyReferences rest

end

end Schema

end AnimationGrammar
