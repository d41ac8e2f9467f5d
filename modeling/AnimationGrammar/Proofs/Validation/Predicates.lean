import AnimationGrammar.Proofs.Grammar.Labels
import AnimationGrammar.Proofs.Validation.Distinct

/-!
The language of predicates.

Validation picks the variant of a predicate from the first key that is an operator, and decides whether
operands differ from a text of each.  `IsPredicate` says without either what a predicate is: a roll
option, a comparison, a connective of predicates that differ, a negation or a conditional.  A JSON value
passes as a predicate exactly when it is one.
-/

namespace AnimationGrammar

open Form Value

/-! ### The language -/

def comparisonOperators : List String := ["eq", "gt", "gte", "lt", "lte"]

def connectiveOperators : List String := ["and", "or", "xor", "nand", "nor", "iff"]

/-- A roll option, or a number that a double can be near to. -/
inductive IsOperand : Value → Prop
  | rollOption {content} : TextFormat.rollOption.accepts content = true →
      IsOperand (.text content)
  | number {n x} : n.toDouble? = some x → IsOperand (.number n)

/-- The predicates. -/
inductive IsPredicate : Value → Prop
  | rollOption {content} : TextFormat.rollOption.accepts content = true →
      IsPredicate (.text content)
  | comparison {operator content operand} : operator ∈ comparisonOperators →
      TextFormat.rollOption.accepts content = true → IsOperand operand →
      IsPredicate (.mapping [(.text operator, .list [.text content, operand])])
  | connective {operator operands} : operator ∈ connectiveOperators → operands ≠ [] →
      (∀ operand ∈ operands, IsPredicate operand) →
      (operands.Pairwise fun a b => ¬ Similar a b) →
      IsPredicate (.mapping [(.text operator, .list operands)])
  | negation {operand} : IsPredicate operand → IsPredicate (.mapping [(.text "not", operand)])
  | conditional {entries condition consequence} :
      entries.Perm [(.text "if", condition), (.text "then", consequence)] →
      IsPredicate condition → IsPredicate consequence → IsPredicate (.mapping entries)

/-! ### Models whose keys are all required -/

/-- Whether all keys of a model are required, and nothing is asked of them together. -/
structure Definition.IsExact (definition : Definition) : Prop where
  closed : definition.closed = true
  required : ∀ field ∈ definition.fields, field.required = true
  excludes : ∀ field ∈ definition.fields, field.excludes = []
  rules : definition.rules = []

/-- Whether an object has the keys of a model with some values, in any order, and no other key. -/
def Definition.Lists (definition : Definition) (values : String → Value)
    (entries : List (Atom × Value)) : Prop :=
  entries.Perm (definition.fieldNames.map fun key => (.text key, values key))

section
variable {reading : Reading} {name : ModelName} {value : Value}

theorem Definition.Lists.mem_iff {definition : Definition} {values : String → Value}
    {entries : List (Atom × Value)} (lists : definition.Lists values entries) {field : Field}
    (inFields : field ∈ definition.fields) {inner : Value} :
    (Atom.text field.name, inner) ∈ entries ↔ inner = values field.name := by
  rw [List.Perm.mem_iff lists, List.mem_map]
  constructor
  · rintro ⟨key, _, same⟩
    simp only [Prod.mk.injEq, Atom.text.injEq] at same
    rw [← same.2, same.1]
  · rintro rfl
    exact ⟨field.name, Definition.mem_fieldNames inFields, rfl⟩

theorem Definition.IsExact.lists_of_fits (exact : name.definition.IsExact)
    {entries : List (Atom × Value)} (json : (Value.mapping entries).IsJson)
    (fits : name.definition.Fits reading entries) :
    name.definition.Lists (fun key => (lookupText key entries).getD (.atom .null)) entries := by
  have entriesDiffer : entries.Nodup := json.keysDiffer.of_map
  have keysDiffer : (name.definition.fieldNames.map fun key =>
      (Atom.text key, (lookupText key entries).getD (.atom .null))).Nodup :=
    name.fieldNames_nodup.map fun a b same => Atom.text.inj (congrArg Prod.fst same)
  rw [Lists, List.perm_ext_iff_of_nodup entriesDiffer keysDiffer]
  rintro ⟨key, inner⟩
  rw [List.mem_map]
  constructor
  · intro membership
    obtain ⟨fieldName, declared, same⟩ := fits.known exact.closed _ membership
    simp only at same
    subst same
    rw [← lookupText_eq_some_iff json.keysDiffer] at membership
    exact ⟨fieldName, declared, by rw [membership, Option.getD_some]⟩
  · rintro ⟨fieldName, declared, same⟩
    obtain ⟨field, inFields, rfl⟩ := List.mem_map.mp declared
    obtain ⟨found, looked⟩ := Option.isSome_iff_exists.mp
      (fits.given field inFields (exact.required field inFields))
    rw [looked, Option.getD_some] at same
    exact same ▸ lookupText_eq_some_mem looked

theorem Definition.IsExact.fits_of_lists (exact : name.definition.IsExact)
    {entries : List (Atom × Value)} (json : (Value.mapping entries).IsJson)
    {values : String → Value} (lists : name.definition.Lists values entries) :
    name.definition.Fits reading entries where
  known _ entry membership := by
    obtain ⟨fieldName, declared, rfl⟩ := List.mem_map.mp ((List.Perm.mem_iff lists).mp membership)
    exact ⟨fieldName, declared, rfl⟩
  given field inFields _ := by
    have membership := (lists.mem_iff inFields).mpr rfl
    rw [IsGiven, (lookupText_eq_some_iff json.keysDiffer).mpr membership, Option.isSome_some]
  exclusive field inFields := by simp [exact.excludes field inFields]
  met := by simp [exact.rules]

theorem Definition.IsExact.admits_iff (exact : name.definition.IsExact) (json : value.IsJson) :
    Admits reading (.model name) value ↔ ∃ entries values, value = .mapping entries ∧
      name.definition.Lists values entries ∧
        ∀ field ∈ name.definition.fields, Admits reading field.form (values field.name) := by
  rw [admits_whole_iff rfl]
  constructor
  · rintro ⟨⟨entries, rfl, fits⟩, parts⟩
    have lists := exact.lists_of_fits json fits
    refine ⟨entries, _, rfl, lists, fun field inFields => ?_⟩
    exact parts (field.form, _)
      (mem_parts_model.mpr ⟨field, inFields, rfl, (lists.mem_iff inFields).mpr rfl⟩)
  · rintro ⟨entries, values, rfl, lists, each⟩
    refine ⟨⟨entries, rfl, exact.fits_of_lists json lists⟩, fun part inParts => ?_⟩
    obtain ⟨field, inFields, same, inEntries⟩ := mem_parts_model.mp inParts
    rw [same, (lists.mem_iff inFields).mp inEntries]
    exact each field inFields

theorem admits_single_iff {field : Field} (single : name.definition = { fields := [field] })
    (required : field.required = true) (excludes : field.excludes = []) (json : value.IsJson) :
    Admits reading (.model name) value ↔ ∃ inner,
      value = .mapping [(.text field.name, inner)] ∧ Admits reading field.form inner := by
  have exact : name.definition.IsExact := by
    rw [single]
    exact ⟨rfl, by simpa using required, by simpa using excludes, rfl⟩
  rw [exact.admits_iff json, single]
  simp only [Definition.Lists, Definition.fieldNames, List.map_cons, List.map_nil,
    List.perm_singleton, List.forall_mem_singleton]
  constructor
  · rintro ⟨entries, values, rfl, rfl, admits⟩
    exact ⟨values field.name, rfl, admits⟩
  · rintro ⟨inner, rfl, admits⟩
    exact ⟨_, fun _ => inner, rfl, rfl, admits⟩

theorem admits_conditional_iff (conditional : name.definition = conditionalDefinition)
    (json : value.IsJson) :
    Admits reading (.model name) value ↔ ∃ entries condition consequence,
      value = .mapping entries ∧
        entries.Perm [(.text "if", condition), (.text "then", consequence)] ∧
        Admits reading .predicate condition ∧ Admits reading .predicate consequence := by
  have exact : name.definition.IsExact := by
    rw [conditional]
    exact ⟨rfl, by simp [conditionalDefinition], by simp [conditionalDefinition], rfl⟩
  rw [exact.admits_iff json, conditional]
  simp only [Definition.Lists, conditionalDefinition, Definition.fieldNames, List.map_cons,
    List.map_nil, List.forall_mem_cons, List.not_mem_nil, false_implies, implies_true, and_true]
  constructor
  · rintro ⟨entries, values, rfl, reordered, admits⟩
    exact ⟨entries, values "if", values "then", rfl, reordered, admits⟩
  · rintro ⟨entries, condition, consequence, rfl, reordered, admits⟩
    exact ⟨entries, fun key => if key = "if" then condition else consequence, rfl, reordered, admits⟩

end

/-! ### The variants -/

theorem predicateModel_cases {name : ModelName} (predicate : name ∈ predicateModels) :
    (∃ operator ∈ comparisonOperators, name.definition = comparisonDefinition operator) ∨
    (∃ operator ∈ connectiveOperators, name.definition = connectiveDefinition operator) ∨
    name.definition = negationDefinition ∨ name.definition = conditionalDefinition := by
  simp only [predicateModels, List.mem_cons, List.not_mem_nil, or_false] at predicate
  rcases predicate with rfl | rfl | rfl | rfl | rfl | rfl | rfl | rfl | rfl | rfl | rfl | rfl | rfl
  all_goals first
    | exact .inr (.inr (.inl rfl))
    | exact .inr (.inr (.inr rfl))
    | exact .inl ⟨_, by decide, rfl⟩
    | exact .inr (.inl ⟨_, by decide, rfl⟩)

theorem comparisonModel_exists {operator : String} (comparison : operator ∈ comparisonOperators) :
    ∃ name ∈ predicateModels, name.definition = comparisonDefinition operator := by
  simp only [comparisonOperators, List.mem_cons, List.not_mem_nil, or_false] at comparison
  rcases comparison with rfl | rfl | rfl | rfl | rfl
  · exact ⟨.eqPredicate, by decide, rfl⟩
  · exact ⟨.gtPredicate, by decide, rfl⟩
  · exact ⟨.gtePredicate, by decide, rfl⟩
  · exact ⟨.ltPredicate, by decide, rfl⟩
  · exact ⟨.ltePredicate, by decide, rfl⟩

theorem connectiveModel_exists {operator : String} (connective : operator ∈ connectiveOperators) :
    ∃ name ∈ predicateModels, name.definition = connectiveDefinition operator := by
  simp only [connectiveOperators, List.mem_cons, List.not_mem_nil, or_false] at connective
  rcases connective with rfl | rfl | rfl | rfl | rfl | rfl
  · exact ⟨.andPredicate, by decide, rfl⟩
  · exact ⟨.orPredicate, by decide, rfl⟩
  · exact ⟨.xorPredicate, by decide, rfl⟩
  · exact ⟨.nandPredicate, by decide, rfl⟩
  · exact ⟨.norPredicate, by decide, rfl⟩
  · exact ⟨.iffPredicate, by decide, rfl⟩

section
variable {value : Value}

theorem admits_rollOption_iff {reading : Reading} : Admits reading .rollOption value ↔
    ∃ content, value = .text content ∧ TextFormat.rollOption.accepts content = true := by
  rw [Form.rollOption, Form.ofFormat, admits_whole_iff rfl, Form.Fits]
  simp [TextRule.Accepts, Form.parts]

/-- A predicate is a roll option, or an object of any variant. -/
theorem admits_predicate_iff {reading : Reading} : Admits reading .predicate value ↔
    (∃ content, value = .text content ∧ TextFormat.rollOption.accepts content = true) ∨
      ∃ name ∈ predicateModels, Admits reading (.model name) value := by
  rw [Form.predicate, admits_choice_iff]
  constructor
  · rintro ⟨label, form, _, entered, admits⟩
    rcases List.mem_cons.mp (lookup_eq_some_mem entered) with same | variant
    · rw [Prod.mk.injEq] at same
      exact .inl (admits_rollOption_iff.mp (same.2 ▸ admits))
    · obtain ⟨name, predicate, same⟩ := List.mem_map.mp variant
      rw [Prod.mk.injEq] at same
      exact .inr ⟨name, predicate, same.2 ▸ admits⟩
  · rintro (⟨content, rfl, accepted⟩ | ⟨name, predicate, admits⟩)
    · exact ⟨rollOptionLabel, .rollOption, rfl, rfl,
        admits_rollOption_iff.mpr ⟨content, rfl, accepted⟩⟩
    · obtain ⟨⟨entries, rfl, fits⟩, _⟩ := (admits_whole_iff rfl).mp admits
      have labelsDiffer := (regularChoice_iff.mp (show Form.predicate.isRegular = true by
        decide +kernel)).labelsDiffer
      refine ⟨name.label, .model name, ?_, (lookup_eq_some_iff_mem labelsDiffer).mpr ?_, admits⟩
      · rw [Dispatch.label?, predicateLabel?, operatorModel?_of_fits predicate fits, Option.map_some]
      · exact List.mem_cons_of_mem _ (List.mem_map.mpr ⟨name, predicate, rfl⟩)

theorem admits_anyNumber_iff : Admits .validation .anyNumber value ↔
    ∃ n x, value = .number n ∧ n.toDouble? = some x := by
  rw [Form.anyNumber, admits_whole_iff rfl]
  constructor
  · rintro ⟨⟨n, same, checked, passed⟩, _⟩
    obtain ⟨x, rounded, _⟩ := NumberRule.check_plain.mp passed
    exact ⟨n, x, same, rounded⟩
  · rintro ⟨n, x, same, rounded⟩
    exact ⟨⟨n, same, .double x, NumberRule.check_plain.mpr ⟨x, rounded, rfl⟩⟩, by simp [Form.parts]⟩

theorem admits_operand_iff : Admits .validation .operand value ↔ IsOperand value := by
  rw [Form.operand, admits_byKind_iff (by decide)]
  simp only [List.exists_mem_cons_iff, List.not_mem_nil, false_and, exists_false, or_false,
    admits_rollOption_iff, admits_anyNumber_iff]
  constructor
  · rintro (⟨_, content, rfl, accepted⟩ | ⟨_, n, x, rfl, rounded⟩)
    · exact .rollOption accepted
    · exact .number rounded
  · intro operand
    cases operand with
    | rollOption accepted => exact .inl ⟨rfl, _, rfl, accepted⟩
    | number rounded => exact .inr ⟨rfl, _, _, rfl, rounded⟩

theorem admits_comparison_iff : Admits .validation .comparison value ↔ ∃ content operand,
    value = .list [.text content, operand] ∧ TextFormat.rollOption.accepts content = true ∧
      IsOperand operand := by
  rw [Form.comparison, admits_whole_iff rfl]
  constructor
  · rintro ⟨⟨items, rfl, length, _⟩, parts⟩
    obtain ⟨first, second, rfl⟩ := List.length_eq_two.mp length
    obtain ⟨content, rfl, accepted⟩ := admits_rollOption_iff.mp
      (parts (.rollOption, first) (by simp [Form.parts]))
    exact ⟨content, second, rfl, accepted,
      admits_operand_iff.mp (parts (.operand, second) (by simp [Form.parts]))⟩
  · rintro ⟨content, operand, rfl, accepted, isOperand⟩
    refine ⟨⟨_, rfl, rfl, by simp⟩, ?_⟩
    simp only [Form.parts, List.zip_cons_cons, List.zip_nil_left, List.forall_mem_cons,
      List.not_mem_nil, false_implies, implies_true, and_true]
    exact ⟨admits_rollOption_iff.mpr ⟨content, rfl, accepted⟩, admits_operand_iff.mpr isOperand⟩

theorem predicate_roundsNumbers : Form.predicate.RoundsNumbers := by
  decide +kernel

theorem admits_predicates_iff (json : value.IsJson) : Admits .validation .predicates value ↔
    ∃ operands, value = .list operands ∧ operands ≠ [] ∧
      (operands.Pairwise fun a b => ¬ Similar a b) ∧
      ∀ operand ∈ operands, Admits .validation .predicate operand :=
  admits_uniqueList_iff predicate_roundsNumbers json

end

/-! ### Predicates pass -/

theorem IsPredicate.admits {value : Value} (predicate : IsPredicate value) (json : value.IsJson) :
    Admits .validation .predicate value := by
  rw [admits_predicate_iff]
  induction predicate with
  | rollOption accepted => exact .inl ⟨_, rfl, accepted⟩
  | comparison comparison accepted operand =>
      obtain ⟨name, variant, same⟩ := comparisonModel_exists comparison
      refine .inr ⟨name, variant, (admits_single_iff same rfl rfl json).mpr ⟨_, rfl, ?_⟩⟩
      exact admits_comparison_iff.mpr ⟨_, _, rfl, accepted, operand⟩
  | connective connective given _ distinct inductionHypothesis =>
      obtain ⟨name, variant, same⟩ := connectiveModel_exists connective
      refine .inr ⟨name, variant, (admits_single_iff same rfl rfl json).mpr ⟨_, rfl, ?_⟩⟩
      have inside := json.entry List.mem_cons_self
      refine (admits_predicates_iff inside).mpr ⟨_, rfl, given, distinct, ?_⟩
      exact fun operand membership => admits_predicate_iff.mpr
        (inductionHypothesis operand membership (inside.item membership))
  | negation _ inductionHypothesis =>
      have admits := admits_predicate_iff.mpr
        (inductionHypothesis (json.entry List.mem_cons_self))
      have same : ModelName.notPredicate.definition = negationDefinition := rfl
      exact .inr ⟨.notPredicate, by decide,
        (admits_single_iff same rfl rfl json).mpr ⟨_, rfl, admits⟩⟩
  | conditional reordered _ _ first second =>
      have inside {key : Atom} {part : Value} (membership : (key, part) ∈ _) : part.IsJson :=
        json.entry (reordered.mem_iff.mpr membership)
      refine .inr ⟨.ifPredicate, by decide, (admits_conditional_iff rfl json).mpr
        ⟨_, _, _, rfl, reordered, ?_, ?_⟩⟩
      · exact admits_predicate_iff.mpr (first (inside List.mem_cons_self))
      · exact admits_predicate_iff.mpr
          (second (inside (List.mem_cons_of_mem _ List.mem_cons_self)))

/-- Whether a value is a predicate if it is admitted as one, and so for the items of a list: the operands
of a connective stand two layers below it. -/
def Value.ReadsPredicates (value : Value) : Prop :=
  (Admits .validation .predicate value → IsPredicate value) ∧
    ∀ operands, value = .list operands → ∀ operand ∈ operands,
      Admits .validation .predicate operand → IsPredicate operand

/-- What is admitted as a variant is a predicate when the parts are. -/
theorem isPredicate_of_variant {name : ModelName} (predicate : name ∈ predicateModels)
    {entries : List (Atom × Value)} (json : (Value.mapping entries).IsJson)
    (inside : ∀ entry ∈ entries, entry.2.ReadsPredicates)
    (admits : Admits .validation (.model name) (.mapping entries)) :
    IsPredicate (.mapping entries) := by
  rcases predicateModel_cases predicate with
    ⟨operator, comparison, same⟩ | ⟨operator, connective, same⟩ | same | same
  · obtain ⟨inner, single, below⟩ := (admits_single_iff same rfl rfl json).mp admits
    obtain ⟨content, operand, rfl, accepted, isOperand⟩ := admits_comparison_iff.mp below
    exact single ▸ .comparison comparison accepted isOperand
  · obtain ⟨inner, single, below⟩ := (admits_single_iff same rfl rfl json).mp admits
    cases single
    obtain ⟨operands, rfl, given, distinct, each⟩ :=
      (admits_predicates_iff (json.entry List.mem_cons_self)).mp below
    refine .connective connective given (fun operand membership => ?_) distinct
    exact (inside _ List.mem_cons_self).2 operands rfl operand membership (each operand membership)
  · obtain ⟨inner, single, below⟩ := (admits_single_iff same rfl rfl json).mp admits
    cases single
    exact .negation ((inside _ List.mem_cons_self).1 below)
  · obtain ⟨others, condition, consequence, whole, reordered, first, second⟩ :=
      (admits_conditional_iff same json).mp admits
    cases whole
    have inFirst := reordered.mem_iff.mpr List.mem_cons_self
    have inSecond := reordered.mem_iff.mpr (List.mem_cons_of_mem _ List.mem_cons_self)
    exact .conditional reordered ((inside _ inFirst).1 first) ((inside _ inSecond).1 second)

theorem Value.IsJson.readsPredicates {value : Value} (json : value.IsJson) :
    value.ReadsPredicates := by
  induction value, json using jsonInduction with
  | atom a json =>
      refine ⟨fun admits => ?_, by simp⟩
      rcases admits_predicate_iff.mp admits with ⟨content, same, accepted⟩ | ⟨name, _, admits⟩
      · exact same ▸ .rollOption accepted
      · obtain ⟨⟨entries, same, _⟩, _⟩ := (admits_whole_iff rfl).mp admits
        simp at same
  | list items json inductionHypothesis =>
      refine ⟨fun admits => ?_, ?_⟩
      · rcases admits_predicate_iff.mp admits with ⟨content, same, _⟩ | ⟨name, _, admits⟩
        · simp at same
        · obtain ⟨⟨entries, same, _⟩, _⟩ := (admits_whole_iff rfl).mp admits
          simp at same
      · rintro _ ⟨⟩ item membership
        exact (inductionHypothesis item membership).1
  | mapping entries json inductionHypothesis =>
      refine ⟨fun admits => ?_, by simp⟩
      rcases admits_predicate_iff.mp admits with ⟨content, same, _⟩ | ⟨name, predicate, variant⟩
      · simp at same
      · exact isPredicate_of_variant predicate json inductionHypothesis variant

/-- A JSON value passes as a predicate exactly when it is one. -/
theorem passes_predicate_iff {value : Value} (json : value.IsJson) :
    value.Passes .predicate ↔ IsPredicate value := by
  rw [json.passes_iff _ (by decide +kernel)]
  exact ⟨json.readsPredicates.1, fun predicate => predicate.admits json⟩

/-- Whoever is not hidden, or is if the level is high enough; the keys of the conditional stand the
other way around. -/
def nestedPredicate : Value :=
  .object [("or", .list [
    .object [("not", .text "self:hidden")],
    .object [("then", .text "self:hidden"),
      ("if", .object [("gte", .list [.text "self:level", .integer 5])])]])]

theorem passes_nestedPredicate :
    nestedPredicate.IsJson ∧ nestedPredicate.Passes .predicate ∧ IsPredicate nestedPredicate := by
  have json : nestedPredicate.IsJson := by decide
  have predicate : IsPredicate nestedPredicate := by
    refine .connective (by decide) (List.cons_ne_nil _ _) ?_ ?_
    · simp only [List.forall_mem_cons, List.not_mem_nil, false_implies, implies_true, and_true]
      obtain ⟨x, rounded, _⟩ := Numeral.toDouble?_small (show (5 : ℤ).natAbs ≤ _ by decide)
      refine ⟨.negation (.rollOption (by decide)),
        .conditional (.swap _ _ _) (.comparison ?_ ?_ (.number rounded)) (.rollOption ?_)⟩
      all_goals decide
    · rw [List.pairwise_pair]
      intro similar
      cases similar with
      | object sameKeys _ => exact absurd (sameKeys "not") (by decide)
  exact ⟨json, (passes_predicate_iff json).mpr predicate, predicate⟩

end AnimationGrammar
