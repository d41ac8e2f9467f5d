import AnimationGrammar.Schema.Export
import AnimationGrammar.Proofs.Schema.Dialect

/-!
What the keywords of a schema say, before they are written as JSON.

`Schema.Holds` reads the keywords as the dialect reads the values that they are written as.  What the
definitions mean is left open there: a document explains a meaning that agrees with its definitions.
-/

namespace AnimationGrammar

namespace Schema

def listedProperties : List Keyword → List String
  | [] => []
  | .properties schemas :: rest => schemas.map Prod.fst ++ listedProperties rest
  | _ :: rest => listedProperties rest

def prefixLength : List Keyword → Nat
  | [] => 0
  | .prefixItems schemas :: rest => max schemas.length (prefixLength rest)
  | _ :: rest => prefixLength rest

mutual

/-- Whether a value follows keywords that stand among others. -/
def AllHold (meaning : Meaning) (siblings : List Keyword) (value : Value) : List Keyword → Prop
  | [] => True
  | keyword :: rest =>
      KeywordHolds meaning siblings value keyword ∧ AllHold meaning siblings value rest

/-- Whether a value follows a keyword that stands among others. -/
def KeywordHolds (meaning : Meaning) (siblings : List Keyword) (value : Value) : Keyword → Prop
  | .type name => value.IsOfType name
  | .const constant => value.isSimilar (.atom constant) = true
  | .enum choices => ∃ choice ∈ choices, value.isSimilar (.text choice) = true
  | .ref name => meaning name value
  | .minimum limit => ∀ n, value = .number n → n.isLess limit = false
  | .maximum limit => ∀ n, value = .number n → limit.isLess n = false
  | .exclusiveMinimum limit => ∀ n, value = .number n → limit.isLess n = true
  | .exclusiveMaximum limit => ∀ n, value = .number n → n.isLess limit = true
  | .minLength length => ∀ content, value = .text content → length ≤ content.length
  | .pattern format => ∀ content, value = .text content → format.accepts content = true
  | .items schema => ∀ items, value = .list items →
      ∀ item ∈ items.drop (prefixLength siblings), AllHold meaning schema item schema
  | .prefixItems schemas => ∀ items, value = .list items →
      ∀ part ∈ items.zip (properties meaning schemas), part.2 part.1
  | .minItems count => ∀ items, value = .list items → count ≤ items.length
  | .maxItems count => ∀ items, value = .list items → items.length ≤ count
  | .uniqueItems => ∀ items, value = .list items →
      items.Pairwise fun a b => a.isSimilar b = false
  | .properties schemas => ∀ entries, value = .mapping entries →
      ∀ member ∈ namedProperties meaning schemas, ∀ part,
        lookupText member.1 entries = some part → member.2 part
  | .required names => ∀ entries, value = .mapping entries →
      ∀ name ∈ names, (lookupText name entries).isSome = true
  | .noOtherProperties => ∀ entries, value = .mapping entries →
      ∀ entry ∈ entries, ∃ name ∈ listedProperties siblings, entry.1 = .text name
  | .additionalProperties schema => ∀ entries, value = .mapping entries → ∀ entry ∈ entries,
      (∀ name ∈ listedProperties siblings, entry.1 ≠ .text name) →
        AllHold meaning schema entry.2 schema
  | .propertyNames schema => ∀ entries, value = .mapping entries →
      ∀ entry ∈ entries, AllHold meaning schema (.atom entry.1) schema
  | .minProperties count => ∀ entries, value = .mapping entries → count ≤ entries.length
  | .dependentRequired name others => ∀ entries, value = .mapping entries →
      (lookupText name entries).isSome = true →
        ∀ other ∈ others, (lookupText other entries).isSome = true
  | .oneOf schemas => ExactlyOne value (properties meaning schemas)
  | .anyOf schemas => ∃ property ∈ properties meaning schemas, property value
  | .not schema => ¬ AllHold meaning schema value schema
  | .discriminator _ _ => True
  | .title _ => True
  | .description _ => True
  | .defaultNull => True

def properties (meaning : Meaning) : List (List Keyword) → List (Value → Prop)
  | [] => []
  | schema :: rest => (fun value => AllHold meaning schema value schema) :: properties meaning rest

def namedProperties (meaning : Meaning) :
    List (String × List Keyword) → List (String × (Value → Prop))
  | [] => []
  | (name, schema) :: rest =>
      (name, fun value => AllHold meaning schema value schema) :: namedProperties meaning rest

end

attribute [simp] AllHold KeywordHolds

def Holds (meaning : Meaning) (schema : Schema) (value : Value) : Prop :=
  AllHold meaning schema value schema

theorem properties_eq (meaning : Meaning) (schemas : List Schema) :
    properties meaning schemas = schemas.map (Holds meaning) := by
  induction schemas with
  | nil => rfl
  | cons schema rest inductionHypothesis =>
      rw [properties, inductionHypothesis, List.map_cons]
      rfl

theorem namedProperties_eq (meaning : Meaning) (schemas : List (String × Schema)) :
    namedProperties meaning schemas =
      schemas.map fun member => (member.1, Holds meaning member.2) := by
  induction schemas with
  | nil => rfl
  | cons member rest inductionHypothesis =>
      rcases member with ⟨name, schema⟩
      rw [namedProperties, inductionHypothesis, List.map_cons]
      rfl

theorem allHold_iff {meaning : Meaning} {siblings schema : Schema} {value : Value} :
    AllHold meaning siblings value schema ↔
      ∀ keyword ∈ schema, KeywordHolds meaning siblings value keyword := by
  induction schema with
  | nil => simp [AllHold]
  | cons keyword rest inductionHypothesis =>
      rw [AllHold, inductionHypothesis, List.forall_mem_cons]

theorem holds_iff {meaning : Meaning} {schema : Schema} {value : Value} :
    Holds meaning schema value ↔ ∀ keyword ∈ schema, KeywordHolds meaning schema value keyword :=
  allHold_iff

end Schema

namespace SchemaDocument

/-- Whether a meaning gives every name the property that its definition states. -/
def Explains (document : SchemaDocument) (meaning : Meaning) : Prop :=
  ∀ name value, value.IsJson → (meaning name value ↔
    ∃ schema, document.definitions.lookup name = some schema ∧ Schema.Holds meaning schema value)

/-- Whether a value follows the schema at the root of a document, the definitions of which have one
meaning. -/
def Accepts (document : SchemaDocument) (value : Value) : Prop :=
  ∃ meaning : Meaning, document.Explains meaning ∧
    (∀ other : Meaning, document.Explains other → meaning.AgreesOnJson other) ∧
    Schema.Holds meaning document.root value

end SchemaDocument

end AnimationGrammar
