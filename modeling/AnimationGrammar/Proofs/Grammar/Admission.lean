import AnimationGrammar.Proofs.Validation.Assembly

/-!
What the grammar admits, written once for every reader.

Validation and the exported schemas read the same descriptions of forms, and they part only on a few
points: what counts as a flag, which numbers a rule takes, when items are alike, and whether delays are
in order.  A `Reading` settles these points, and `Admits` says which values a form then takes, with one
rule for unions and one for all other forms.  Two readings are compared place by place, at the forms
and values that `Visits` reaches (`Admits.change`).
-/

namespace AnimationGrammar

/-- The points on which readers of the grammar part. -/
structure Reading where
  flag : Value → Prop
  number : NumberRule → Numeral → Prop
  /-- Whether the items of a tuple differ that have to. -/
  distinct : List Value → Prop
  /-- Whether the items of a list differ that have to. -/
  unique : List Value → Prop
  /-- Whether the delays of an object are in order. -/
  ordered : List (Atom × Value) → Prop

def TextRule.Accepts (content : String) : TextRule → Prop
  | any => True
  | nonEmpty => content ≠ ""
  | format kind => kind.accepts content = true
  | animationId => TextFormat.slug.accepts content = true ∧ 6 ≤ content.length

def IsGiven (entries : List (Atom × Value)) (name : String) : Prop :=
  (lookupText name entries).isSome = true

def ModelRule.IsMet (reading : Reading) (entries : List (Atom × Value)) : ModelRule → Prop
  | someKey => entries ≠ []
  | someDimension => IsGiven entries "x" ∨ IsGiven entries "y"
  | orderedDelays =>
      (IsGiven entries "delayMax" → IsGiven entries "delayMin") ∧ reading.ordered entries

/-- What a model asks of an object, apart from what it asks of the values under the keys. -/
structure Definition.Fits (reading : Reading) (entries : List (Atom × Value))
    (definition : Definition) : Prop where
  known : definition.closed = true →
    ∀ entry ∈ entries, ∃ name ∈ definition.fieldNames, entry.1 = .text name
  given : ∀ field ∈ definition.fields, field.required = true → IsGiven entries field.name
  exclusive : ∀ field ∈ definition.fields, IsGiven entries field.name →
    ∀ other ∈ field.excludes, ¬ IsGiven entries other
  met : ∀ rule ∈ definition.rules, rule.IsMet reading entries

namespace Form

/-- What a form that is no union asks of a value, apart from what it asks of its parts. -/
def Fits (reading : Reading) (value : Value) : Form → Prop
  | .text rule => ∃ content, value = .text content ∧ rule.Accepts content
  | .number rule => ∃ n, value = .number n ∧ reading.number rule n
  | .literal choices => ∃ content ∈ choices, value = .text content
  | .flag => reading.flag value
  | .anyJson => True
  | .tuple positions distinct => ∃ items, value = .list items ∧
      items.length = positions.length ∧ (distinct = true → reading.distinct items)
  | .list _ minLength unique => ∃ items, value = .list items ∧
      minLength.getD 0 ≤ items.length ∧ (unique = true → reading.unique items)
  | .dictionary key _ => ∃ entries, value = .mapping entries ∧
      ∀ entry ∈ entries, ∃ content, entry.1 = .text content ∧ key.Accepts content
  | .model name => ∃ entries, value = .mapping entries ∧ name.definition.Fits reading entries
  | .choice _ _ => False

/-- The parts of a value, each with the form that it has to have. -/
def parts (value : Value) : Form → List (Form × Value)
  | .tuple positions _ =>
      match value with
      | .list items => positions.zip items
      | _ => []
  | .list item _ _ =>
      match value with
      | .list items => items.map fun part => (item, part)
      | _ => []
  | .dictionary _ item =>
      match value with
      | .mapping entries => entries.map fun entry => (item, entry.2)
      | _ => []
  | .model name =>
      match value with
      | .mapping entries => entries.filterMap fun entry =>
          (name.definition.formOf? entry.1).map fun form => (form, entry.2)
      | _ => []
  | _ => []

end Form

/-- The values that a form takes. -/
inductive Admits (reading : Reading) : Form → Value → Prop
  | branch {dispatch branches label form value} : dispatch.label? value = some label →
      branches.lookup label = some form → Admits reading form value →
      Admits reading (.choice dispatch branches) value
  | whole {form value} : form.Fits reading value →
      (∀ part ∈ form.parts value, Admits reading part.1 part.2) → Admits reading form value

/-- The forms and parts that are reached from a form and a value. -/
inductive Visits : Form → Value → Form → Value → Prop
  | here {form value} : form.isChoice = false → Visits form value form value
  | branch {dispatch branches label form value inner place} :
      dispatch.label? value = some label → branches.lookup label = some form →
      Visits form value inner place → Visits (.choice dispatch branches) value inner place
  | part {form value part inner place} : part ∈ form.parts value →
      Visits part.1 part.2 inner place → Visits form value inner place

section
variable {reading : Reading} {value : Value}

theorem admits_choice_iff {dispatch : Dispatch} {branches : List (String × Form)} :
    Admits reading (.choice dispatch branches) value ↔ ∃ label form,
      dispatch.label? value = some label ∧ branches.lookup label = some form ∧
        Admits reading form value := by
  constructor
  · intro admits
    cases admits with
    | branch found entered admits => exact ⟨_, _, found, entered, admits⟩
    | whole fits => exact fits.elim
  · rintro ⟨label, form, found, entered, admits⟩
    exact .branch found entered admits

/-- A union on the kind of values admits what the branch for the kind of the value admits. -/
theorem admits_byKind_iff {branches : List (Kind × Form)}
    (kindsDiffer : (branches.map Prod.fst).Nodup) :
    Admits reading (.byKind branches) value ↔
      ∃ branch ∈ branches, value.kind? = some branch.1 ∧ Admits reading branch.2 value := by
  have labelsDiffer :
      ((branches.map fun branch => (branch.1.label, branch.2)).map Prod.fst).Nodup := by
    have injective : Function.Injective Kind.label := fun _ _ => Kind.label_injective
    simpa [List.map_map, Function.comp_def] using kindsDiffer.map injective
  rw [Form.byKind, admits_choice_iff]
  constructor
  · rintro ⟨label, form, found, entered, admits⟩
    obtain ⟨branch, membership, same⟩ := List.mem_map.mp (lookup_eq_some_mem entered)
    obtain ⟨rfl, rfl⟩ := Prod.mk.inj same
    obtain ⟨kind, found, same⟩ := Option.map_eq_some_iff.mp found
    exact ⟨branch, membership, Kind.label_injective same ▸ found, admits⟩
  · rintro ⟨branch, membership, found, admits⟩
    refine ⟨branch.1.label, branch.2, ?_, ?_, admits⟩
    · rw [Dispatch.label?, found, Option.map_some]
    · exact (lookup_eq_some_iff_mem labelsDiffer).mpr (List.mem_map.mpr ⟨branch, membership, rfl⟩)

theorem admits_whole_iff {form : Form} (whole : form.isChoice = false) :
    Admits reading form value ↔
      form.Fits reading value ∧ ∀ part ∈ form.parts value, Admits reading part.1 part.2 := by
  constructor
  · intro admits
    cases admits with
    | branch => simp [Form.isChoice] at whole
    | whole fits parts => exact ⟨fits, parts⟩
  · rintro ⟨fits, parts⟩
    exact .whole fits parts

end

theorem Form.Fits.isWhole {reading : Reading} {form : Form} {value : Value}
    (fits : form.Fits reading value) : form.isChoice = false := by
  cases form with
  | choice dispatch branches => exact fits.elim
  | _ => rfl

/-- Readings that agree at every place that is visited admit alike. -/
theorem Admits.change {first second : Reading} {form : Form} {value : Value}
    (admits : Admits first form value)
    (each : ∀ inner place, Visits form value inner place → inner.Fits first place →
      (∀ part ∈ inner.parts place, Admits first part.1 part.2) → inner.Fits second place) :
    Admits second form value := by
  induction admits with
  | branch found entered _ inductionHypothesis =>
      refine .branch found entered (inductionHypothesis fun inner place visits => ?_)
      exact each inner place (.branch found entered visits)
  | whole fits parts inductionHypothesis =>
      refine .whole (each _ _ (.here fits.isWhole) fits parts) fun part membership => ?_
      refine inductionHypothesis part membership fun inner place visits => ?_
      exact each inner place (.part membership visits)

theorem Form.isWhole_of_mem_parts {form : Form} {value : Value} {part : Form × Value}
    (membership : part ∈ form.parts value) : form.isChoice = false := by
  cases form with
  | choice dispatch branches => simp [parts] at membership
  | _ => rfl

/-- What is admitted fits at every place that is visited. -/
theorem Admits.fits {reading : Reading} {form inner : Form} {value place : Value}
    (admits : Admits reading form value) (visits : Visits form value inner place) :
    inner.Fits reading place := by
  induction visits with
  | here whole => exact ((admits_whole_iff whole).mp admits).1
  | branch found entered _ inductionHypothesis =>
      obtain ⟨label, form, foundToo, enteredToo, admits⟩ := admits_choice_iff.mp admits
      rw [found, Option.some.injEq] at foundToo
      rw [← foundToo, entered, Option.some.injEq] at enteredToo
      exact inductionHypothesis (enteredToo ▸ admits)
  | part membership _ inductionHypothesis =>
      have whole := Form.isWhole_of_mem_parts membership
      exact inductionHypothesis (((admits_whole_iff whole).mp admits).2 _ membership)

/-! ### Parts -/

theorem Form.mem_parts_model {name : ModelName} {entries : List (Atom × Value)}
    {part : Form × Value} : part ∈ (Form.model name).parts (.mapping entries) ↔
      ∃ field ∈ name.definition.fields, part.1 = field.form ∧
        (Atom.text field.name, part.2) ∈ entries := by
  rcases part with ⟨form, value⟩
  simp only [parts, List.mem_filterMap, Option.map_eq_some_iff]
  constructor
  · rintro ⟨⟨key, inner⟩, membership, form, known, same⟩
    simp only [Prod.mk.injEq] at same
    obtain ⟨rfl, rfl⟩ := same
    obtain ⟨field, inFields, rfl, rfl⟩ := ModelName.formOf?_eq_some known
    exact ⟨field, inFields, rfl, membership⟩
  · rintro ⟨field, inFields, rfl, membership⟩
    exact ⟨_, membership, field.form, ModelName.formOf?_of_mem inFields, rfl⟩

/-- The ways in which a form and a value come by a part. -/
inductive Form.HasPart : Form → Value → Form → Value → Prop
  | position {positions distinct items form item} : (form, item) ∈ positions.zip items →
      HasPart (.tuple positions distinct) (.list items) form item
  | item {form minLength unique items item} : item ∈ items →
      HasPart (.list form minLength unique) (.list items) form item
  | entry {key form entries name value} : (name, value) ∈ entries →
      HasPart (.dictionary key form) (.mapping entries) form value
  | field {name : ModelName} {entries field value} : field ∈ name.definition.fields →
      (Atom.text field.name, value) ∈ entries →
      HasPart (.model name) (.mapping entries) field.form value

theorem Form.mem_parts_iff {form inner : Form} {value place : Value} :
    (inner, place) ∈ form.parts value ↔ form.HasPart value inner place := by
  constructor
  · intro membership
    cases form with
    | tuple positions distinct =>
        cases value with
        | list items => exact .position membership
        | _ => simp [parts] at membership
    | list item minLength unique =>
        cases value with
        | list items =>
            obtain ⟨part, inItems, same⟩ := List.mem_map.mp membership
            cases same
            exact .item inItems
        | _ => simp [parts] at membership
    | dictionary key item =>
        cases value with
        | mapping entries =>
            obtain ⟨entry, inEntries, same⟩ := List.mem_map.mp membership
            cases same
            exact .entry inEntries
        | _ => simp [parts] at membership
    | model name =>
        cases value with
        | mapping entries =>
            obtain ⟨field, inFields, rfl, given⟩ := mem_parts_model.mp membership
            exact .field inFields given
        | _ => simp [parts] at membership
    | _ => simp [parts] at membership
  · intro hasPart
    cases hasPart with
    | position inZip => exact inZip
    | item inItems => exact List.mem_map_of_mem inItems
    | entry inEntries => exact List.mem_map.mpr ⟨_, inEntries, rfl⟩
    | field inFields given => exact mem_parts_model.mpr ⟨_, inFields, rfl, given⟩

theorem Form.isPartOf_of_mem_parts {form : Form} {value : Value} {part : Form × Value}
    (membership : part ∈ form.parts value) : part.2.IsPartOf value := by
  obtain ⟨inner, place⟩ := part
  cases mem_parts_iff.mp membership with
  | position inZip => exact .item (List.of_mem_zip inZip).2 .self
  | item inItems => exact .item inItems .self
  | entry inEntries => exact .entry inEntries .self
  | field _ given => exact .entry given .self

theorem Visits.isPartOf {form inner : Form} {value place : Value}
    (visits : Visits form value inner place) : place.IsPartOf value := by
  induction visits with
  | here => exact .self
  | branch _ _ _ inductionHypothesis => exact inductionHypothesis
  | part membership _ inductionHypothesis =>
      exact inductionHypothesis.trans (Form.isPartOf_of_mem_parts membership)

theorem Form.mem_parts_of_declared {name : ModelName} {entries : List (Atom × Value)} {key : Atom}
    {form : Form} (declared : name.definition.formOf? key = some form) {inner : Value}
    (membership : (key, inner) ∈ entries) : (form, inner) ∈ (Form.model name).parts (.mapping entries) := by
  obtain ⟨field, inFields, rfl, rfl⟩ := ModelName.formOf?_eq_some declared
  exact mem_parts_model.mpr ⟨field, inFields, rfl, membership⟩

theorem Form.isRegular_of_mem_parts {form : Form} {value : Value} {part : Form × Value}
    (regular : form.isRegular = true) (membership : part ∈ form.parts value) :
    part.1.isRegular = true := by
  obtain ⟨inner, place⟩ := part
  cases mem_parts_iff.mp membership with
  | position inZip =>
      simp only [isRegular, Bool.and_eq_true, areRegular_iff] at regular
      exact regular.1 _ (List.of_mem_zip inZip).1
  | item => exact regular
  | entry => simp [isRegular] at regular
  | @field name _ field _ inFields _ => exact name.field_isRegular field inFields

/-- A fact about JSON values and regular forms is proved for unions from their branches, and for all
other forms from the parts. -/
theorem Value.IsJson.formInduction {motive : Value → Form → Prop}
    (choice : ∀ value, value.IsJson → ∀ dispatch branches, Form.RegularChoice dispatch branches →
      (∀ branch ∈ branches, motive value branch.2) → motive value (.choice dispatch branches))
    (whole : ∀ value, value.IsJson → ∀ form : Form, form.isChoice = false → form.isRegular = true →
      (∀ part ∈ form.parts value, motive part.2 part.1) → motive value form)
    {value : Value} (json : value.IsJson) (form : Form) (regular : form.isRegular = true) :
    motive value form := by
  have step (value : Value) (json : value.IsJson)
      (parts : ∀ form : Form, form.isRegular = true → ∀ part ∈ form.parts value,
        motive part.2 part.1) :
      ∀ form : Form, form.isRegular = true → motive value form := by
    intro form regular
    induction form using Form.choiceInduction with
    | choice dispatch branches inductionHypothesis =>
        have regularChoice := Form.regularChoice_iff.mp regular
        apply choice value json dispatch branches regularChoice
        intro branch membership
        exact inductionHypothesis branch membership (regularChoice.branchRegular branch membership)
    | whole form isWhole => exact whole value json form isWhole regular (parts form regular)
  induction value, json using jsonInduction generalizing form with
  | atom a json =>
      refine step (.atom a) json (fun form _ part membership => ?_) form regular
      nomatch Form.mem_parts_iff.mp membership
  | list items json inductionHypothesis =>
      refine step (.list items) json (fun form regular part membership => ?_) form regular
      have partRegular := Form.isRegular_of_mem_parts regular membership
      obtain ⟨inner, place⟩ := part
      cases Form.mem_parts_iff.mp membership with
      | position inZip => exact inductionHypothesis _ (List.of_mem_zip inZip).2 _ partRegular
      | item inItems => exact inductionHypothesis _ inItems _ partRegular
  | mapping entries json inductionHypothesis =>
      refine step (.mapping entries) json (fun form regular part membership => ?_) form regular
      have partRegular := Form.isRegular_of_mem_parts regular membership
      obtain ⟨inner, place⟩ := part
      cases Form.mem_parts_iff.mp membership with
      | entry inEntries => exact inductionHypothesis _ inEntries _ partRegular
      | field _ given => exact inductionHypothesis _ given _ partRegular

end AnimationGrammar
