import AnimationGrammar.Proofs.Grammar.Admission
import AnimationGrammar.Proofs.Schema.Branches
import Mathlib.Data.List.Zip

/-!
What the schema of a form says at one place of a value.

`Reading.schema` is how schemas read the grammar: numbers count as they are written, and a flag is the
value true.  Under any meaning of the definitions, a value follows the schema of a form that is no union
when it fits the form under this reading and every part follows the schema of its own form.
-/

namespace AnimationGrammar

open Value

structure Bounds.Admit (bounds : Bounds) (n : Numeral) : Prop where
  atMost : ∀ limit ∈ bounds.atMost, limit.isLess n = false
  below : ∀ limit ∈ bounds.below, n.isLess limit = true
  atLeast : ∀ limit ∈ bounds.atLeast, n.isLess limit = false
  above : ∀ limit ∈ bounds.above, limit.isLess n = true

/-- How schemas read the grammar. -/
def Reading.schema : Reading where
  flag value := value = .boolean true
  number rule n := (rule.whole = true → n.toInt?.isSome = true) ∧ rule.bounds.Admit n ∧
    (rule.nonZero = true → n.isEqual (.integer 0) = false)
  distinct items := items.Pairwise fun a b => a.isSimilar b = false
  unique items := items.Pairwise fun a b => a.isSimilar b = false
  ordered _ := True

namespace Schema

section
variable {meaning : Meaning} {value : Value}

theorem allHold_append {siblings first second : Schema} :
    AllHold meaning siblings value (first ++ second) ↔
      AllHold meaning siblings value first ∧ AllHold meaning siblings value second := by
  rw [allHold_iff, allHold_iff, allHold_iff, List.forall_mem_append]

theorem allHold_flatMap_iff {α : Type} {siblings : Schema} {keywords : α → Schema}
    {members : List α} :
    AllHold meaning siblings value (members.flatMap keywords) ↔
      ∀ member ∈ members, AllHold meaning siblings value (keywords member) := by
  induction members with
  | nil => simp
  | cons member rest inductionHypothesis =>
      rw [List.flatMap_cons, allHold_append, inductionHypothesis, List.forall_mem_cons]

/-- Of the keywords beside it, a keyword looks only at those that list properties and items. -/
theorem allHold_congr {siblings others schema : Schema}
    (listed : listedProperties siblings = listedProperties others)
    (items : prefixLength siblings = prefixLength others) :
    AllHold meaning siblings value schema ↔ AllHold meaning others value schema := by
  rw [allHold_iff, allHold_iff]
  refine forall₂_congr fun keyword _ => ?_
  cases keyword <;> simp only [KeywordHolds, listed, items]

end

/-- Whether keywords say nothing about values. -/
def IsSilent (schema : Schema) : Prop :=
  ∀ keyword ∈ schema, keyword = .defaultNull ∨ (∃ text, keyword = .title text) ∨
    (∃ text, keyword = .description text) ∨ ∃ property schemas, keyword = .discriminator property schemas

theorem IsSilent.allHold {schema : Schema} (silent : schema.IsSilent) (meaning : Meaning)
    (siblings : Schema) (value : Value) : AllHold meaning siblings value schema := by
  rw [allHold_iff]
  intro keyword membership
  rcases silent keyword membership with rfl | ⟨text, rfl⟩ | ⟨text, rfl⟩ | ⟨property, schemas, rfl⟩
  all_goals trivial

theorem IsSilent.tail {keyword : Keyword} {rest : Schema} (silent : IsSilent (keyword :: rest)) :
    rest.IsSilent :=
  fun other membership => silent other (List.mem_cons_of_mem _ membership)

theorem IsSilent.siblings_append {annotations : Schema} (silent : annotations.IsSilent)
    (schema : Schema) :
    listedProperties (schema ++ annotations) = listedProperties schema ∧
      prefixLength (schema ++ annotations) = prefixLength schema := by
  induction schema with
  | nil =>
      rw [List.nil_append]
      induction annotations with
      | nil => exact ⟨rfl, rfl⟩
      | cons keyword rest inductionHypothesis =>
          obtain ⟨listed, items⟩ := inductionHypothesis silent.tail
          rcases silent keyword List.mem_cons_self with
            rfl | ⟨text, rfl⟩ | ⟨text, rfl⟩ | ⟨property, schemas, rfl⟩
          all_goals exact ⟨listed, items⟩
  | cons keyword rest inductionHypothesis =>
      obtain ⟨listed, items⟩ := inductionHypothesis
      cases keyword <;> simp [listedProperties, prefixLength, listed, items]

/-- Annotations change nothing. -/
theorem holds_append_iff {meaning : Meaning} {schema annotations : Schema} {value : Value}
    (silent : annotations.IsSilent) :
    Holds meaning (schema ++ annotations) value ↔ Holds meaning schema value := by
  obtain ⟨listed, items⟩ := silent.siblings_append schema
  rw [Holds, Holds, allHold_append, allHold_congr listed items]
  exact ⟨fun holds => holds.1, fun holds => ⟨holds, silent.allHold _ _ _⟩⟩

end Schema

namespace Form

variable {meaning : Meaning} {value : Value}

attribute [local simp] schema

theorem holds_text_iff {rule : TextRule} :
    Schema.Holds meaning (Form.text rule).schema value ↔ (Form.text rule).Fits .schema value := by
  have nonEmpty (content : String) : 1 ≤ content.length ↔ content ≠ "" := by
    rw [Nat.one_le_iff_ne_zero, Ne, String.length_eq_zero_iff]
  rw [Schema.Holds, schema, Fits]
  by_cases text : ∃ content, value = .text content
  · obtain ⟨content, rfl⟩ := text
    cases rule <;>
      simp [TextRule.keywords, TextRule.Accepts, nonEmpty]
  · rw [not_exists] at text
    simp [text]

theorem holds_literal_iff {choices : List String} :
    Schema.Holds meaning (Form.literal choices).schema value ↔
      (Form.literal choices).Fits .schema value := by
  have similar (choice : String) : value.isSimilar (.text choice) = true ↔ value = .text choice := by
    cases value with
    | atom a => cases a <;> simp [isSimilar, Atom.isSimilar]
    | _ => simp [isSimilar]
  rw [Schema.Holds, Fits]
  rcases choices with _ | ⟨only, _ | ⟨second, rest⟩⟩
  · simp
  · simp only [schema, Schema.AllHold, Schema.KeywordHolds, IsOfType, similar]
    simp +contextual
  · simp only [schema, Schema.AllHold, Schema.KeywordHolds, IsOfType, similar, and_true]
    constructor
    · rintro ⟨chosen, _⟩
      exact chosen
    · rintro ⟨choice, membership, same⟩
      exact ⟨⟨choice, membership, same⟩, choice, same⟩

theorem holds_flag_iff :
    Schema.Holds meaning Form.flag.schema value ↔ Form.flag.Fits .schema value := by
  rw [Schema.Holds, Fits, schema, Reading.schema]
  cases value with
  | atom a =>
      cases a <;> simp [isSimilar, Atom.isSimilar]
  | _ => simp [isSimilar]

theorem allHold_limitKeyword_iff {siblings : Schema} {keyword : Numeral → Keyword}
    {limit : Option Numeral} (exact : ∀ bound ∈ limit, bound.isExactLimit = true) :
    Schema.AllHold meaning siblings value (limitKeyword keyword limit) ↔
      ∀ bound ∈ limit, Schema.KeywordHolds meaning siblings value (keyword bound) := by
  cases limit with
  | none => simp [limitKeyword]
  | some bound =>
      cases bound with
      | integer n => simp [limitKeyword]
      | double x => simp [Numeral.isExactLimit] at exact

theorem holds_number_iff {rule : NumberRule} (regular : (Form.number rule).isRegular = true) :
    Schema.Holds meaning (Form.number rule).schema value ↔
      (Form.number rule).Fits .schema value := by
  simp only [isRegular, Bounds.limits, List.all_append, Bool.and_eq_true, List.all_eq_true,
    Option.mem_toList] at regular
  obtain ⟨⟨⟨atMost, below⟩, atLeast⟩, above⟩ := regular
  suffices ∀ siblings, Schema.AllHold meaning siblings value (Form.number rule).schema ↔
      (Form.number rule).Fits .schema value from this _
  intro siblings
  rw [Fits, schema, Schema.allHold_append, Schema.AllHold, Bounds.keywords, Schema.allHold_append,
    Schema.allHold_append, Schema.allHold_append,
    allHold_limitKeyword_iff atMost, allHold_limitKeyword_iff below,
    allHold_limitKeyword_iff atLeast, allHold_limitKeyword_iff above]
  by_cases number : ∃ n, value = .number n
  · obtain ⟨n, rfl⟩ := number
    have type : Schema.KeywordHolds meaning siblings (.number n)
        (.type (if rule.whole = true then "integer" else "number")) ↔
        (rule.whole = true → n.toInt?.isSome = true) := by
      cases rule.whole <;> simp
    have nonZero : Schema.AllHold meaning siblings (.number n)
        (if rule.nonZero = true then [.not [.const (.number (.integer 0))]] else []) ↔
        (rule.nonZero = true → n.isEqual (.integer 0) = false) := by
      cases rule.nonZero <;>
        simp [isSimilar, Atom.isSimilar]
    have bounds : rule.bounds.Admit n ↔
        ((∀ limit ∈ rule.bounds.atMost, limit.isLess n = false) ∧
          ∀ limit ∈ rule.bounds.below, n.isLess limit = true) ∧
          (∀ limit ∈ rule.bounds.atLeast, n.isLess limit = false) ∧
          ∀ limit ∈ rule.bounds.above, limit.isLess n = true := by
      constructor
      · intro within
        exact ⟨⟨within.atMost, within.below⟩, within.atLeast, within.above⟩
      · rintro ⟨⟨atMost, below⟩, atLeast, above⟩
        exact ⟨atMost, below, atLeast, above⟩
    rw [type, nonZero]
    simp only [Schema.KeywordHolds, Value.atom.injEq, Atom.number.injEq, forall_eq',
      exists_eq_left', Reading.schema, bounds, and_assoc]
  · rw [not_exists] at number
    cases whole : rule.whole <;> simp [number]

theorem holds_tuple_iff {positions : List Form} {distinct : Bool} :
    Schema.Holds meaning (Form.tuple positions distinct).schema value ↔
      (Form.tuple positions distinct).Fits .schema value ∧
        ∀ part ∈ (Form.tuple positions distinct).parts value,
          Schema.Holds meaning part.1.schema part.2 := by
  by_cases list : ∃ items, value = .list items
  · obtain ⟨items, rfl⟩ := list
    have each : (∀ part ∈ items.zip (Schema.properties meaning (positionSchemas positions)),
        part.2 part.1) ↔ ∀ part ∈ (Form.tuple positions distinct).parts (.list items),
          Schema.Holds meaning part.1.schema part.2 := by
      rw [Schema.properties_eq, positionSchemas_eq, List.map_map, List.zip_map_right,
        List.forall_mem_map, parts, ← List.zip_swap items positions, List.forall_mem_map]
      rfl
    rw [← each, Schema.Holds]
    suffices ∀ siblings, Schema.AllHold meaning siblings (.list items)
        (Form.tuple positions distinct).schema ↔ (Form.tuple positions distinct).Fits .schema
          (.list items) ∧ ∀ part ∈ items.zip (Schema.properties meaning (positionSchemas positions)),
          part.2 part.1 from this _
    intro siblings
    have differ : Schema.AllHold meaning siblings (.list items)
        (if distinct = true then [.uniqueItems] else []) ↔
        (distinct = true → items.Pairwise fun a b => a.isSimilar b = false) := by
      cases distinct <;> simp
    rw [schema, Schema.allHold_append, differ, Fits]
    simp only [Schema.AllHold, Schema.KeywordHolds, IsOfType, Value.list.injEq, forall_eq',
      exists_eq_left', exists_eq', true_and, and_true, Reading.schema]
    constructor
    · rintro ⟨⟨enough, each, few⟩, differ⟩
      exact ⟨⟨le_antisymm few enough, differ⟩, each⟩
    · rintro ⟨⟨length, differ⟩, each⟩
      exact ⟨⟨length.ge, each, length.le⟩, differ⟩
  · rw [not_exists] at list
    simp [Schema.Holds, Fits, list]

theorem holds_list_iff {item : Form} {minLength : Option Nat} {unique : Bool} :
    Schema.Holds meaning (Form.list item minLength unique).schema value ↔
      (Form.list item minLength unique).Fits .schema value ∧
        ∀ part ∈ (Form.list item minLength unique).parts value,
          Schema.Holds meaning part.1.schema part.2 := by
  by_cases list : ∃ items, value = .list items
  · obtain ⟨items, rfl⟩ := list
    have noPrefix : Schema.prefixLength (Form.list item minLength unique).schema = 0 := by
      cases minLength <;> cases unique <;> rfl
    have each : (∀ part ∈ (Form.list item minLength unique).parts (.list items),
        Schema.Holds meaning part.1.schema part.2) ↔
          ∀ part ∈ items, Schema.Holds meaning item.schema part := by
      rw [parts, List.forall_mem_map]
    rw [each, Schema.Holds]
    suffices ∀ siblings, Schema.prefixLength siblings = 0 →
        (Schema.AllHold meaning siblings (.list items) (Form.list item minLength unique).schema ↔
          (Form.list item minLength unique).Fits .schema (.list items) ∧
            ∀ part ∈ items, Schema.Holds meaning item.schema part) from this _ noPrefix
    intro siblings noPrefix
    have enough : Schema.AllHold meaning siblings (.list items)
        (minLength.map Keyword.minItems).toList ↔ minLength.getD 0 ≤ items.length := by
      cases minLength <;> simp
    have differ : Schema.AllHold meaning siblings (.list items)
        (if unique = true then [.uniqueItems] else []) ↔
        (unique = true → items.Pairwise fun a b => a.isSimilar b = false) := by
      cases unique <;> simp
    rw [schema, Schema.allHold_append, Schema.allHold_append, enough, differ, Fits]
    simp only [Schema.AllHold, Schema.KeywordHolds, IsOfType, Value.list.injEq, forall_eq',
      exists_eq_left', exists_eq', true_and, and_true, Reading.schema, noPrefix, List.drop_zero]
    constructor
    · rintro ⟨⟨each, enough⟩, differ⟩
      exact ⟨⟨enough, differ⟩, each⟩
    · rintro ⟨⟨enough, differ⟩, each⟩
      exact ⟨⟨each, enough⟩, differ⟩
  · rw [not_exists] at list
    simp [Schema.Holds, Fits, list]

theorem holds_dictionary_iff {kind : TextFormat} {item : Form} (json : value.IsJson) :
    Schema.Holds meaning (Form.dictionary (.format kind) item).schema value ↔
      (Form.dictionary (.format kind) item).Fits .schema value ∧
        ∀ part ∈ (Form.dictionary (.format kind) item).parts value,
          Schema.Holds meaning part.1.schema part.2 := by
  by_cases object : ∃ entries, value = .mapping entries
  · obtain ⟨entries, rfl⟩ := object
    have names : (∀ entry ∈ entries, Schema.Holds meaning [.pattern kind] (.atom entry.1)) ↔
        ∀ entry ∈ entries, ∃ content, entry.1 = .text content ∧
          (TextRule.format kind).Accepts content := by
      refine forall₂_congr fun entry membership => ?_
      obtain ⟨name, named⟩ := json.key membership
      simp [Schema.Holds, named, TextRule.Accepts]
    have each : (∀ part ∈ (Form.dictionary (.format kind) item).parts (.mapping entries),
        Schema.Holds meaning part.1.schema part.2) ↔
          ∀ entry ∈ entries, Schema.Holds meaning item.schema entry.2 := by
      rw [parts, List.forall_mem_map]
    rw [each, Fits]
    simp only [Value.mapping.injEq, exists_eq_left', ← names]
    simp [Schema.Holds, Schema.listedProperties]
  · rw [not_exists] at object
    simp [Schema.Holds, Fits, object]

end Form

/-! ### Models -/

theorem Schema.listedProperties_append (first second : Schema) :
    listedProperties (first ++ second) = listedProperties first ++ listedProperties second := by
  induction first with
  | nil => rfl
  | cons keyword rest inductionHypothesis =>
      cases keyword <;> simp [listedProperties, inductionHypothesis]

theorem Schema.listedProperties_eq_nil {schema : Schema}
    (none : ∀ keyword ∈ schema, ∀ schemas, keyword ≠ .properties schemas) :
    listedProperties schema = [] := by
  induction schema with
  | nil => rfl
  | cons keyword rest inductionHypothesis =>
      have tail := inductionHypothesis fun other membership =>
        none other (List.mem_cons_of_mem _ membership)
      cases keyword with
      | properties schemas => exact absurd rfl (none _ List.mem_cons_self schemas)
      | _ => exact tail

def Definition.requirement (definition : Definition) : Schema :=
  match definition.requiredNames with
  | [] => []
  | names => [.required names]

theorem ModelName.schema_eq (name : ModelName) :
    name.schema =
      [.type "object", .properties (name.definition.fields.map fun field =>
        (field.name, field.schema))] ++ name.definition.requirement ++
        (if name.definition.closed then [.noOtherProperties] else []) ++
        name.definition.rules.map ModelRule.keyword ++
        name.definition.fields.flatMap Field.exclusion ++
        [.title name.label] ++ (name.definition.description.map Keyword.description).toList := by
  rfl

theorem Field.eq_of_mem_exclusion {field : Field} {keyword : Keyword}
    (membership : keyword ∈ field.exclusion) :
    keyword = .not [.required [field.name],
      .anyOf (field.excludes.map fun other => [.required [other]])] := by
  rw [exclusion] at membership
  split at membership
  · simp at membership
  · exact List.mem_singleton.mp membership

theorem ModelName.listedProperties_schema (name : ModelName) :
    Schema.listedProperties name.schema = name.definition.fieldNames := by
  have rules : Schema.listedProperties (name.definition.rules.map ModelRule.keyword) = [] := by
    apply Schema.listedProperties_eq_nil
    intro keyword membership schemas
    obtain ⟨rule, _, rfl⟩ := List.mem_map.mp membership
    cases rule <;> simp [ModelRule.keyword]
  have exclusions : Schema.listedProperties (name.definition.fields.flatMap Field.exclusion) = [] := by
    apply Schema.listedProperties_eq_nil
    intro keyword membership schemas
    obtain ⟨field, _, inside⟩ := List.mem_flatMap.mp membership
    simp [field.eq_of_mem_exclusion inside]
  have description : Schema.listedProperties
      (name.definition.description.map Keyword.description).toList = [] := by
    cases name.definition.description <;> rfl
  have closed : Schema.listedProperties
      (if name.definition.closed = true then [.noOtherProperties] else []) = [] := by
    cases name.definition.closed <;> rfl
  have required : Schema.listedProperties name.definition.requirement = [] := by
    unfold Definition.requirement
    split <;> rfl
  simp only [schema_eq, Schema.listedProperties_append, rules, exclusions, description, closed,
    required, List.append_nil]
  simp [Schema.listedProperties, Definition.fieldNames]

namespace Schema

section
variable {meaning : Meaning} {siblings : Schema} {entries : List (Atom × Value)}

theorem allHold_required_iff {definition : Definition} :
    AllHold meaning siblings (.mapping entries) definition.requirement ↔
      ∀ field ∈ definition.fields, field.required = true → IsGiven entries field.name := by
  have names : (∀ name ∈ definition.requiredNames, IsGiven entries name) ↔
      ∀ field ∈ definition.fields, field.required = true → IsGiven entries field.name := by
    rw [Definition.requiredNames, List.forall_mem_map]
    simp only [List.mem_filter, and_imp]
  rw [← names, Definition.requirement]
  cases definition.requiredNames <;> simp [IsGiven]

theorem allHold_exclusion_iff {field : Field} :
    AllHold meaning siblings (.mapping entries) field.exclusion ↔
      (IsGiven entries field.name → ∀ other ∈ field.excludes, ¬ IsGiven entries other) := by
  rw [Field.exclusion]
  cases field.excludes with
  | nil => simp
  | cons first rest =>
      have some (other : String) :
          Holds meaning [.required [other]] (.mapping entries) ↔ IsGiven entries other := by
        simp [Holds, IsGiven]
      have given : AllHold meaning [.required [field.name], .anyOf ((first :: rest).map fun other =>
          [.required [other]])] (.mapping entries) [.required [field.name], .anyOf ((first ::
            rest).map fun other => [.required [other]])] ↔
          IsGiven entries field.name ∧ ∃ other ∈ first :: rest, IsGiven entries other := by
        simp only [AllHold, KeywordHolds, properties_eq, List.map_map, and_true, List.mem_map,
          exists_exists_and_eq_and, Function.comp_apply, some]
        simp [IsGiven]
      rw [AllHold, AllHold, KeywordHolds, given]
      simp only [and_true, not_and, not_exists]

theorem keywordHolds_rule_iff {rule : ModelRule} :
    KeywordHolds meaning siblings (.mapping entries) rule.keyword ↔ rule.IsMet .schema entries := by
  cases rule with
  | someKey =>
      simp [ModelRule.keyword, ModelRule.IsMet, Nat.one_le_iff_ne_zero]
  | someDimension =>
      simp [ModelRule.keyword, ModelRule.IsMet, properties_eq, Holds, IsGiven]
  | orderedDelays =>
      simp [ModelRule.keyword, ModelRule.IsMet, Reading.schema, IsGiven]

theorem holds_field_iff {field : Field} {value : Value} :
    Holds meaning field.schema value ↔ Holds meaning field.form.schema value := by
  rw [Field.schema, List.append_assoc, List.append_assoc]
  apply holds_append_iff
  intro keyword membership
  simp only [List.mem_append] at membership
  rcases membership with default | title | description
  · split at default
    · simp at default
    · exact .inl (List.mem_singleton.mp default)
  · split at title
    · simp at title
    · exact .inr (.inl ⟨_, List.mem_singleton.mp title⟩)
  · rw [Option.mem_toList, Option.map_eq_some_iff] at description
    obtain ⟨text, _, rfl⟩ := description
    exact .inr (.inr (.inl ⟨text, rfl⟩))

end

end Schema

section
variable {name : ModelName} {meaning : Meaning} {siblings : Schema} {entries : List (Atom × Value)}

theorem ModelName.allHold_closed_iff
    (listed : Schema.listedProperties siblings = name.definition.fieldNames) :
    Schema.AllHold meaning siblings (.mapping entries)
        (if name.definition.closed then [.noOtherProperties] else []) ↔
      (name.definition.closed = true → ∀ entry ∈ entries,
        ∃ fieldName ∈ name.definition.fieldNames, entry.1 = .text fieldName) := by
  cases name.definition.closed <;> simp [listed]

theorem ModelName.allHold_rules_iff :
    Schema.AllHold meaning siblings (.mapping entries)
        (name.definition.rules.map ModelRule.keyword) ↔
      ∀ rule ∈ name.definition.rules, rule.IsMet .schema entries := by
  rw [Schema.allHold_iff, List.forall_mem_map]
  simp only [Schema.keywordHolds_rule_iff]

theorem ModelName.allHold_exclusions_iff :
    Schema.AllHold meaning siblings (.mapping entries)
        (name.definition.fields.flatMap Field.exclusion) ↔
      ∀ field ∈ name.definition.fields, IsGiven entries field.name →
        ∀ other ∈ field.excludes, ¬ IsGiven entries other := by
  rw [Schema.allHold_flatMap_iff]
  simp only [Schema.allHold_exclusion_iff]

/-- The properties that a schema lists are those of the parts of the object. -/
theorem ModelName.forall_parts_iff (json : (Value.mapping entries).IsJson) :
    (∀ part ∈ (Form.model name).parts (.mapping entries),
        Schema.Holds meaning part.1.schema part.2) ↔
      ∀ member ∈ Schema.namedProperties meaning (name.definition.fields.map fun field =>
        (field.name, field.schema)), ∀ part, lookupText member.1 entries = some part →
          member.2 part := by
  rw [Schema.namedProperties_eq, List.map_map, List.forall_mem_map]
  simp only [Function.comp_apply, Schema.holds_field_iff]
  constructor
  · intro each field membership part given
    exact each (field.form, part)
      (Form.mem_parts_iff.mpr (.field membership (lookupText_eq_some_mem given)))
  · rintro each ⟨form, part⟩ membership
    cases Form.mem_parts_iff.mp membership with
    | field inFields given =>
        exact each _ inFields part ((lookupText_eq_some_iff json.keysDiffer).mpr given)

theorem ModelName.allHold_iff (json : (Value.mapping entries).IsJson)
    (listed : Schema.listedProperties siblings = name.definition.fieldNames) :
    Schema.AllHold meaning siblings (.mapping entries) name.schema ↔
      (Form.model name).Fits .schema (.mapping entries) ∧
        ∀ part ∈ (Form.model name).parts (.mapping entries),
          Schema.Holds meaning part.1.schema part.2 := by
  have annotations : Schema.AllHold meaning siblings (.mapping entries)
      (name.definition.description.map Keyword.description).toList := by
    cases name.definition.description <;> simp
  rw [forall_parts_iff json, schema_eq]
  simp only [Schema.allHold_append, allHold_closed_iff listed, allHold_rules_iff,
    allHold_exclusions_iff, annotations, Schema.allHold_required_iff, Schema.AllHold,
    Schema.KeywordHolds, IsOfType, Form.Fits, Value.mapping.injEq, forall_eq', exists_eq_left',
    exists_eq', true_and, and_true]
  constructor
  · rintro ⟨⟨⟨⟨each, given⟩, known⟩, met⟩, exclusive⟩
    exact ⟨⟨known, given, exclusive, met⟩, each⟩
  · rintro ⟨⟨known, given, exclusive, met⟩, each⟩
    exact ⟨⟨⟨⟨each, given⟩, known⟩, met⟩, exclusive⟩

end

/-- An object follows the schema of a model when it fits the model and what stands under every known key
follows the schema of its form. -/
theorem ModelName.holds_iff {name : ModelName} {meaning : Meaning} {value : Value}
    (json : value.IsJson) :
    Schema.Holds meaning name.schema value ↔
      (Form.model name).Fits .schema value ∧
        ∀ part ∈ (Form.model name).parts value, Schema.Holds meaning part.1.schema part.2 := by
  by_cases object : ∃ entries, value = .mapping entries
  · obtain ⟨entries, rfl⟩ := object
    exact allHold_iff json name.listedProperties_schema
  · rw [not_exists] at object
    simp [Schema.Holds, schema, Form.Fits, object]

end AnimationGrammar
