import AnimationGrammar.Schema.Export
import AnimationGrammar.Proofs.Number.Rounding
import AnimationGrammar.Proofs.Value.Json

/-!
Regular forms: what every form of the grammar has in common.

A union of a regular form finds its branch from the value alone: `Dispatch.suits` says that a branch
takes only values that bear its label.  `Form.isRegular` is a check on the data of the grammar, and the
theorems at the end say that every field of every model passes it.  Facts about validation and about
schemas are then proved once for regular forms, instead of once for each model.
-/

namespace AnimationGrammar

/-- A limit that rounding to a double neither moves nor lets another integer reach. -/
def Numeral.isExactLimit : Numeral → Bool
  | .integer value => value.natAbs < exactIntegers
  | .double _ => false

def Bounds.limits (bounds : Bounds) : List Numeral :=
  bounds.atMost.toList ++ bounds.below.toList ++ bounds.atLeast.toList ++ bounds.above.toList

/-- What tells the schemas of two branches apart when they are written out. -/
def Keyword.mark? : Keyword → Option (String × Atom)
  | .type name => some ("type", .text name)
  | .ref name => some ("$ref", .text (definitionPath name))
  | .minItems count => some ("minItems", .number (.integer count))
  | _ => none

def Schema.marks (schema : Schema) : List (String × Atom) := schema.filterMap Keyword.mark?

def Schema.isMarkedApart (a b : Schema) : Bool :=
  !(a.marks.all (· ∈ b.marks) && b.marks.all (· ∈ a.marks))

theorem Kind.label_injective {first second : Kind} (same : first.label = second.label) :
    first = second := by
  cases first <;> cases second <;> first | rfl | exact absurd same (by decide)

namespace Form

/-- The kind of the values that a form takes, where there is only one. -/
def kindOf? : Form → Option Kind
  | .text _ => some .string
  | .literal _ => some .string
  | .number _ => some .number
  | .flag => some .boolean
  | .tuple _ _ => some .array
  | .list _ _ _ => some .array
  | .dictionary _ _ => some .object
  | .model _ => some .object
  | .choice .length _ => some .array
  | .choice _ _ => none
  | .anyJson => none

def isPlainNumber : Form → Bool
  | .number rule => rule = {}
  | _ => false

end Form

/-- Whether the form under a label takes only values that bear the label. -/
def Dispatch.suits : Dispatch → String × Form → Bool
  | .kind, (label, form) => form.kindOf?.any fun kind => kind.label = label
  | .operator, (label, .model name) => label = name.label && name ∈ Form.predicateModels
  | .operator, (label, .text _) => label = Form.rollOptionLabel
  | .type, (label, .model name) => (label, name) ∈ filterModels
  | .length, (label, .tuple positions _) => label = integerText positions.length
  | _, _ => false

/-- The ways in which a form can suit the label that it stands under. -/
inductive Dispatch.Suits : Dispatch → String → Form → Prop
  | kind {kind form} : form.kindOf? = some kind → Suits .kind kind.label form
  | predicate {name} : name ∈ Form.predicateModels → Suits .operator name.label (.model name)
  | rollOption {rule} : Suits .operator Form.rollOptionLabel (.text rule)
  | filter {label name} : (label, name) ∈ filterModels → Suits .type label (.model name)
  | length {positions distinct} :
      Suits .length (integerText positions.length) (.tuple positions distinct)

theorem Dispatch.suits_iff {dispatch : Dispatch} {label : String} {form : Form} :
    dispatch.suits (label, form) = true ↔ Suits dispatch label form := by
  constructor
  · intro holds
    cases dispatch with
    | kind =>
        simp only [Dispatch.suits, Option.any_eq_true, decide_eq_true_eq] at holds
        obtain ⟨kind, kinds, rfl⟩ := holds
        exact .kind kinds
    | operator =>
        cases form with
        | model name =>
            simp only [Dispatch.suits, Bool.and_eq_true, decide_eq_true_eq] at holds
            obtain ⟨rfl, predicate⟩ := holds
            exact .predicate predicate
        | text rule =>
            obtain rfl := of_decide_eq_true holds
            exact .rollOption
        | _ => simp [Dispatch.suits] at holds
    | type =>
        cases form with
        | model name => exact .filter (of_decide_eq_true holds)
        | _ => simp [Dispatch.suits] at holds
    | length =>
        cases form with
        | tuple positions distinct =>
            obtain rfl := of_decide_eq_true holds
            exact .length
        | _ => simp [Dispatch.suits] at holds
  · rintro (kinds | predicate | _ | filter | _)
    · simp [Dispatch.suits, kinds]
    · simp [Dispatch.suits, predicate]
    · simp [Dispatch.suits]
    · simp [Dispatch.suits, filter]
    · simp [Dispatch.suits]

namespace Form

mutual

/-- Whether a form of a field is put together so that every union in it can be told apart. -/
def isRegular : Form → Bool
  | .number rule => rule.bounds.limits.all Numeral.isExactLimit
  | .tuple positions distinct =>
      areRegular positions &&
        (!distinct || (positions.length == 2 && positions.all isPlainNumber))
  | .list item _ _ => item.isRegular
  | .choice dispatch branches =>
      branchesAreRegular branches && branches.all dispatch.suits &&
        decide ((branches.map Prod.fst).Nodup) &&
        decide ((branchSchemas branches).Pairwise fun a b => a.isMarkedApart b = true)
  | .dictionary _ _ => false
  | _ => true

def areRegular : List Form → Bool
  | [] => true
  | form :: rest => form.isRegular && areRegular rest

def branchesAreRegular : List (String × Form) → Bool
  | [] => true
  | (_, form) :: rest => form.isRegular && branchesAreRegular rest

end

theorem areRegular_iff {forms : List Form} :
    areRegular forms = true ↔ ∀ form ∈ forms, form.isRegular = true := by
  induction forms with
  | nil => simp [areRegular]
  | cons form rest inductionHypothesis => simp [areRegular, inductionHypothesis]

theorem branchesAreRegular_iff {branches : List (String × Form)} :
    branchesAreRegular branches = true ↔ ∀ branch ∈ branches, branch.2.isRegular = true := by
  induction branches with
  | nil => simp [branchesAreRegular]
  | cons branch rest inductionHypothesis =>
      simp [branchesAreRegular, inductionHypothesis]

structure RegularChoice (dispatch : Dispatch) (branches : List (String × Form)) : Prop where
  branchRegular : ∀ branch ∈ branches, branch.2.isRegular = true
  suits : ∀ branch ∈ branches, dispatch.suits branch = true
  labelsDiffer : (branches.map Prod.fst).Nodup
  schemasDiffer : (branchSchemas branches).Pairwise fun a b => a.isMarkedApart b = true

theorem regularChoice_iff {dispatch : Dispatch} {branches : List (String × Form)} :
    (Form.choice dispatch branches).isRegular = true ↔ RegularChoice dispatch branches := by
  simp only [isRegular, Bool.and_eq_true, branchesAreRegular_iff, List.all_eq_true,
    decide_eq_true_eq]
  constructor
  · rintro ⟨⟨⟨branchRegular, suits⟩, labelsDiffer⟩, schemasDiffer⟩
    exact ⟨branchRegular, suits, labelsDiffer, schemasDiffer⟩
  · rintro ⟨branchRegular, suits, labelsDiffer, schemasDiffer⟩
    exact ⟨⟨⟨branchRegular, suits⟩, labelsDiffer⟩, schemasDiffer⟩

section
variable {dispatch : Dispatch} {branches : List (String × Form)} {label : String} {form : Form}

theorem RegularChoice.suited (choice : RegularChoice dispatch branches)
    (membership : (label, form) ∈ branches) : dispatch.Suits label form :=
  Dispatch.suits_iff.mp (choice.suits _ membership)

/-- The only unions whose values are of one kind are those on the number of items. -/
theorem eq_length_of_kindOf? {kind : Kind}
    (kinds : (Form.choice dispatch branches).kindOf? = some kind) :
    dispatch = .length ∧ kind = .array := by
  cases dispatch with
  | length => exact ⟨rfl, (Option.some.inj kinds).symm⟩
  | _ => simp [kindOf?] at kinds

end

end Form

/-! ### The models of the grammar -/

def declaredNames : List String := ModelName.all.flatMap fun name => name.definition.fieldNames

/-- The labels that a union may put into a location on the way into an object. -/
def objectLabels : List String :=
  Kind.object.label :: Form.predicateModels.map ModelName.label ++ filterModels.map Prod.fst

/-- Whether a condition on an object can be told from the entries of the object alone. -/
def ModelRule.isRegular (definition : Definition) : ModelRule → Bool
  | someKey => true
  | someDimension => "x" ∈ definition.fieldNames && "y" ∈ definition.fieldNames
  | orderedDelays =>
      ["delayMin", "delayMax"].all fun name =>
        match (definition.field? name).map Field.form with
        | some (.number rule) => !rule.whole
        | _ => false

namespace ModelName

theorem mem_all (name : ModelName) : name ∈ all := by
  cases name <;> decide

/-- What every model of the grammar has in common. -/
structure IsRegular (name : ModelName) : Prop where
  labelled : ofLabel? name.label = some name
  forms : ∀ field ∈ name.definition.fields, field.form.isRegular = true
  namesDiffer : name.definition.fieldNames.Nodup
  exclusions : ∀ field ∈ name.definition.fields, ∀ other ∈ field.excludes,
    other ∈ name.definition.fieldNames.takeWhile (· ≠ field.name)
  openWithoutRules : name.definition.closed = true ∨ name.definition.rules = []
  rules : ∀ rule ∈ name.definition.rules, rule.isRegular name.definition = true

instance : DecidablePred IsRegular := fun name =>
  decidable_of_iff
    (ofLabel? name.label = some name ∧
      (∀ field ∈ name.definition.fields, field.form.isRegular = true) ∧
      name.definition.fieldNames.Nodup ∧
      (∀ field ∈ name.definition.fields, ∀ other ∈ field.excludes,
        other ∈ name.definition.fieldNames.takeWhile (· ≠ field.name)) ∧
      (name.definition.closed = true ∨ name.definition.rules = []) ∧
      ∀ rule ∈ name.definition.rules, rule.isRegular name.definition = true)
    ⟨fun ⟨labelled, forms, namesDiffer, exclusions, openWithoutRules, rules⟩ =>
        ⟨labelled, forms, namesDiffer, exclusions, openWithoutRules, rules⟩,
      fun regular => ⟨regular.labelled, regular.forms, regular.namesDiffer, regular.exclusions,
        regular.openWithoutRules, regular.rules⟩⟩

theorem isRegular (name : ModelName) : name.IsRegular := by
  have regular : ∀ name ∈ all, name.IsRegular := by decide +kernel
  exact regular name name.mem_all

theorem ofLabel?_label (name : ModelName) : ofLabel? name.label = some name :=
  name.isRegular.labelled

theorem label_injective {first second : ModelName} (same : first.label = second.label) :
    first = second := by
  have found := ofLabel?_label first
  rw [same, ofLabel?_label second] at found
  exact (Option.some.inj found).symm

theorem field_isRegular (name : ModelName) :
    ∀ field ∈ name.definition.fields, field.form.isRegular = true :=
  name.isRegular.forms

theorem fieldNames_nodup (name : ModelName) : name.definition.fieldNames.Nodup :=
  name.isRegular.namesDiffer

theorem excludes_before (name : ModelName) :
    ∀ field ∈ name.definition.fields, ∀ other ∈ field.excludes,
      other ∈ name.definition.fieldNames.takeWhile (· ≠ field.name) :=
  name.isRegular.exclusions

theorem closed_or_rules_nil (name : ModelName) :
    name.definition.closed = true ∨ name.definition.rules = [] :=
  name.isRegular.openWithoutRules

theorem rule_isRegular (name : ModelName) :
    ∀ rule ∈ name.definition.rules, rule.isRegular name.definition = true :=
  name.isRegular.rules

theorem fieldName_declared {name : ModelName} {fieldName : String}
    (membership : fieldName ∈ name.definition.fieldNames) : fieldName ∈ declaredNames :=
  List.mem_flatMap.mpr ⟨name, name.mem_all, membership⟩

end ModelName

theorem objectLabel_not_declared : ∀ label ∈ objectLabels, label ∉ declaredNames := by
  decide +kernel

end AnimationGrammar
