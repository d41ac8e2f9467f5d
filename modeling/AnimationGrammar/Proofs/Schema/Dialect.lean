import AnimationGrammar.Proofs.Text.Notation
import AnimationGrammar.Proofs.Value.Similar

/-!
JSON schemas as JSON values.

A schema is a JSON object, whose keys are keywords of the 2020-12 dialect: a keyword speaks about values of
one type and lets all others pass, whole numbers are integers however they are written, and values are
compared as JSON values.  A pattern is matched from the first to the last character of a text.  Annotations
say nothing, and a keyword that is neither read here nor an annotation is followed by no value.

A reference names one of the definitions of the document.  These refer to each other in circles, so what
they mean is a solution of equations: a meaning gives every name a property of values, and a document
explains a meaning that agrees with its definitions.
-/

namespace AnimationGrammar

/-- What the names of definitions stand for. -/
abbrev Meaning := String → Value → Prop

def Meaning.AgreesOnJson (meaning other : Meaning) : Prop :=
  ∀ name value, value.IsJson → (meaning name value ↔ other name value)

def Value.IsOfType (value : Value) : String → Prop
  | "null" => value = .null
  | "boolean" => ∃ content, value = .boolean content
  | "number" => ∃ n, value = .number n
  | "integer" => ∃ n, value = .number n ∧ n.toInt?.isSome = true
  | "string" => ∃ content, value = .text content
  | "array" => ∃ items, value = .list items
  | "object" => ∃ entries, value = .mapping entries
  | _ => False

attribute [simp] Value.IsOfType

def ExactlyOne (value : Value) : List (Value → Prop) → Prop
  | [] => False
  | first :: rest =>
      (first value ∧ ∀ other ∈ rest, ¬ other value) ∨ (¬ first value ∧ ExactlyOne value rest)

/-- Whether a text is the name of a key among some entries. -/
def HasKey (entries : List (Atom × Value)) (name : Value) : Prop :=
  ∃ content, name = .text content ∧ (lookupText content entries).isSome = true

namespace Dialect

/-- What stands behind a keyword: a value, and the properties that it states where it is read as a schema,
as schemas in a list, or as schemas under names. -/
structure Argument where
  value : Value
  schema : Value → Prop
  each : List (Value → Prop)
  named : List (Atom × (Value → Prop))

/-- Whether the keywords of a schema list a property. -/
def Lists (siblings : List (Atom × Value)) (key : Atom) : Prop :=
  ∃ schemas schema, (Atom.text "properties", Value.mapping schemas) ∈ siblings ∧ (key, schema) ∈ schemas

/-- Whether a position lies behind those that have schemas of their own. -/
def IsBehindPrefix (siblings : List (Atom × Value)) (position : Nat) : Prop :=
  ∀ schemas, (Atom.text "prefixItems", Value.list schemas) ∈ siblings → schemas.length ≤ position

/-- The keywords that say nothing about values, and those that only the document as a whole needs. -/
def annotations : List String :=
  ["title", "description", "markdownDescription", "default", "discriminator", "$schema", "$defs"]

/-- Whether a value follows a keyword that stands among others. -/
def Argument.Holds (argument : Argument) (meaning : Meaning) (siblings : List (Atom × Value))
    (value : Value) : String → Prop
  | "type" => ∃ name, argument.value = .text name ∧ value.IsOfType name
  | "const" => value.isSimilar argument.value = true
  | "enum" => ∃ choices, argument.value = .list choices ∧
      ∃ choice ∈ choices, value.isSimilar choice = true
  | "$ref" => ∃ name, argument.value = .text ("#/$defs/" ++ name) ∧ meaning name value
  | "minimum" => ∀ n, value = .number n →
      ∃ limit, argument.value = .number limit ∧ n.isLess limit = false
  | "maximum" => ∀ n, value = .number n →
      ∃ limit, argument.value = .number limit ∧ limit.isLess n = false
  | "exclusiveMinimum" => ∀ n, value = .number n →
      ∃ limit, argument.value = .number limit ∧ limit.isLess n = true
  | "exclusiveMaximum" => ∀ n, value = .number n →
      ∃ limit, argument.value = .number limit ∧ n.isLess limit = true
  | "minLength" => ∀ content, value = .text content →
      ∃ length : Nat, argument.value = .integer length ∧ length ≤ content.length
  | "pattern" => ∀ content, value = .text content →
      ∃ source pattern, argument.value = .text source ∧
        Pattern.ofSource? source.toList = some pattern ∧ content.toList ∈ pattern.language
  | "items" => ∀ items, value = .list items → ∀ position item, items[position]? = some item →
      IsBehindPrefix siblings position → argument.schema item
  | "prefixItems" => ∀ items, value = .list items →
      ∀ part ∈ items.zip argument.each, part.2 part.1
  | "minItems" => ∀ items, value = .list items →
      ∃ count : Nat, argument.value = .integer count ∧ count ≤ items.length
  | "maxItems" => ∀ items, value = .list items →
      ∃ count : Nat, argument.value = .integer count ∧ items.length ≤ count
  | "uniqueItems" => argument.value = .boolean true ∧ ∀ items, value = .list items →
      items.Pairwise fun a b => a.isSimilar b = false
  | "properties" => ∀ entries, value = .mapping entries → ∀ member ∈ argument.named,
      ∃ name, member.1 = .text name ∧ ∀ part, lookupText name entries = some part → member.2 part
  | "required" => ∀ entries, value = .mapping entries →
      ∃ names, argument.value = .list names ∧ ∀ name ∈ names, HasKey entries name
  | "additionalProperties" => ∀ entries, value = .mapping entries →
      ∀ entry ∈ entries, ¬ Lists siblings entry.1 → argument.schema entry.2
  | "propertyNames" => ∀ entries, value = .mapping entries →
      ∀ entry ∈ entries, argument.schema (.atom entry.1)
  | "minProperties" => ∀ entries, value = .mapping entries →
      ∃ count : Nat, argument.value = .integer count ∧ count ≤ entries.length
  | "dependentRequired" => ∀ entries, value = .mapping entries →
      ∃ dependencies, argument.value = .mapping dependencies ∧ ∀ dependency ∈ dependencies,
        HasKey entries (.atom dependency.1) →
          ∃ names, dependency.2 = .list names ∧ ∀ name ∈ names, HasKey entries name
  | "oneOf" => ExactlyOne value argument.each
  | "anyOf" => ∃ property ∈ argument.each, property value
  | "not" => ¬ argument.schema value
  | keyword => keyword ∈ annotations

mutual

/-- Whether a value follows a schema: true and false are schemas too. -/
def Follows (meaning : Meaning) : Value → Value → Prop
  | .atom (.boolean anything), _ => anything = true
  | .mapping keywords, value => AllFollowed meaning keywords value keywords
  | _, _ => False

/-- Whether a value follows keywords that stand among others. -/
def AllFollowed (meaning : Meaning) (siblings : List (Atom × Value)) (value : Value) :
    List (Atom × Value) → Prop
  | [] => True
  | (key, argument) :: rest =>
      (∃ keyword, key = .text keyword ∧
        Argument.Holds ⟨argument, Follows meaning argument, listed meaning argument,
          named meaning argument⟩ meaning siblings value keyword) ∧
        AllFollowed meaning siblings value rest

def listed (meaning : Meaning) : Value → List (Value → Prop)
  | .list schemas => properties meaning schemas
  | _ => []

def named (meaning : Meaning) : Value → List (Atom × (Value → Prop))
  | .mapping schemas => namedProperties meaning schemas
  | _ => []

def properties (meaning : Meaning) : List Value → List (Value → Prop)
  | [] => []
  | schema :: rest => Follows meaning schema :: properties meaning rest

def namedProperties (meaning : Meaning) : List (Atom × Value) → List (Atom × (Value → Prop))
  | [] => []
  | (name, schema) :: rest => (name, Follows meaning schema) :: namedProperties meaning rest

end

/-- What stands behind a keyword, read in every way. -/
def Argument.of (meaning : Meaning) (argument : Value) : Argument where
  value := argument
  schema := Follows meaning argument
  each := listed meaning argument
  named := Dialect.named meaning argument

end Dialect

namespace Value

/-- The schema that a document defines under a name. -/
def definition? (document : Value) (name : String) : Option Value :=
  (document.get? "$defs").bind (·.get? name)

/-- Whether a meaning gives every name the property that its definition states. -/
def Explains (document : Value) (meaning : Meaning) : Prop :=
  ∀ name value, value.IsJson → (meaning name value ↔
    ∃ schema, document.definition? name = some schema ∧ Dialect.Follows meaning schema value)

/-- Whether a schema document is followed by a value: its definitions have one meaning, and under that
the value follows its root. -/
def IsFollowedBy (document value : Value) : Prop :=
  ∃ meaning : Meaning, document.Explains meaning ∧
    (∀ other : Meaning, document.Explains other → meaning.AgreesOnJson other) ∧
    Dialect.Follows meaning document value

end Value

end AnimationGrammar
