import AnimationGrammar.Proofs.Grammar.Labels
import AnimationGrammar.Proofs.Schema.Definitions

/-!
What the definitions of a schema document mean.

The definitions refer to each other in circles, so what they mean is a solution of equations.  It exists,
and on JSON values there is no other: a value follows a definition exactly when the grammar admits it
under the reading of schemas.  A union is told apart by its branches, since a value that follows the
schema of a branch bears the label of the branch.
-/

namespace AnimationGrammar

open Value Form

/-! ### Branches bear their labels -/

/-- Whether what follows the definition of a model looks like an object of the model. -/
def Meaning.IsSound (meaning : Meaning) : Prop :=
  ∀ (name : ModelName) (value : Value), value.IsJson → meaning name.label value →
    (Form.model name).Fits .schema value ∧
      ∀ part ∈ (Form.model name).parts value, ∀ choices, part.1 = .literal choices →
        part.1.Fits .schema part.2

section
variable {meaning : Meaning} {value : Value}

/-- A value that follows the schema of a form that is no union fits the form. -/
theorem fits_of_holds (sound : meaning.IsSound) (json : value.IsJson) {form : Form}
    (whole : form.isChoice = false) (regular : form.isRegular = true)
    (holds : Schema.Holds meaning form.schema value) : form.Fits .schema value := by
  cases form with
  | text rule => exact holds_text_iff.mp holds
  | number rule => exact (holds_number_iff regular).mp holds
  | literal choices => exact holds_literal_iff.mp holds
  | flag => exact holds_flag_iff.mp holds
  | anyJson => trivial
  | tuple positions distinct => exact (holds_tuple_iff.mp holds).1
  | list item minLength unique => exact (holds_list_iff.mp holds).1
  | dictionary key item => simp [isRegular] at regular
  | choice dispatch branches => simp [isChoice] at whole
  | model name => exact (sound name value json holds.1).1

theorem holds_choice_iff_exactlyOne {dispatch : Dispatch} {branches : List (String × Form)}
    (choice : RegularChoice dispatch branches) :
    Schema.Holds meaning (Form.choice dispatch branches).schema value ↔
      ExactlyOne value (branches.map fun branch => Schema.Holds meaning branch.2.schema) := by
  have each : Schema.properties meaning (withoutRepeats (branchSchemas branches)) =
      branches.map fun branch => Schema.Holds meaning branch.2.schema := by
    rw [Schema.properties_eq, choice.withoutRepeats_eq, List.map_map]
    rfl
  rw [Schema.Holds]
  cases dispatch <;> simp only [schema, Schema.AllHold, Schema.KeywordHolds, each, and_true]

theorem kind?_of_holds (sound : meaning.IsSound) (json : value.IsJson) {form : Form} {kind : Kind}
    (kinds : form.kindOf? = some kind) (regular : form.isRegular = true)
    (holds : Schema.Holds meaning form.schema value) : value.kind? = some kind := by
  by_cases whole : form.isChoice = false
  · exact kind?_of_fits kinds (fun _ flag => ⟨true, flag⟩)
      (fits_of_holds sound json whole regular holds)
  · cases form with
    | choice dispatch branches =>
        obtain ⟨rfl, rfl⟩ := eq_length_of_kindOf? kinds
        have choice := regularChoice_iff.mp regular
        obtain ⟨⟨property, membership, holds⟩, _⟩ :=
          exactlyOne_iff.mp ((holds_choice_iff_exactlyOne choice).mp holds)
        obtain ⟨⟨name, position⟩, inBranches, rfl⟩ := List.mem_map.mp membership
        cases choice.suited inBranches with
        | length =>
            obtain ⟨items, rfl, _⟩ := (holds_tuple_iff.mp holds).1
            rfl
    | _ => exact absurd rfl whole

theorem get?_type_of_holds (sound : meaning.IsSound) (json : value.IsJson) {label : String}
    {name : ModelName} (filter : (label, name) ∈ filterModels)
    (holds : meaning name.label value) : value.get? "type" = some (.text label) := by
  have declared := filterType_field filter
  obtain ⟨⟨entries, rfl, fits⟩, literals⟩ := sound name value json holds
  obtain ⟨type, given⟩ := Option.isSome_iff_exists.mp (fits.given _ declared rfl)
  have part : ((filterTypeField label).form, type) ∈
      (Form.model name).parts (.mapping entries) :=
    Form.mem_parts_model.mpr ⟨_, declared, rfl, lookupText_eq_some_mem given⟩
  obtain ⟨content, chosen, rfl⟩ := literals _ part _ rfl
  exact List.mem_singleton.mp chosen ▸ given

/-- A value that follows the schema of a branch bears the label of the branch. -/
theorem label?_of_holds (sound : meaning.IsSound) (json : value.IsJson) {dispatch : Dispatch}
    {label : String} {form : Form} (suits : dispatch.Suits label form)
    (regular : form.isRegular = true) (holds : Schema.Holds meaning form.schema value) :
    dispatch.label? value = some label := by
  cases suits with
  | kind kinds =>
      rw [Dispatch.label?, kind?_of_holds sound json kinds regular holds, Option.map_some]
  | predicate predicate =>
      obtain ⟨entries, rfl, fits⟩ := fits_of_holds sound json rfl regular holds
      rw [Dispatch.label?, predicateLabel?, operatorModel?_of_fits predicate fits, Option.map_some]
  | rollOption =>
      obtain ⟨content, rfl, _⟩ := fits_of_holds sound json rfl regular holds
      rfl
  | filter filter =>
      rw [Dispatch.label?, get?_type_of_holds sound json filter holds.1]
  | length =>
      obtain ⟨items, rfl, length, _⟩ := fits_of_holds sound json rfl regular holds
      rw [Dispatch.label?, items?, Option.map_some, length]

/-- A value follows the schema of a union when it follows that of the branch under its label. -/
theorem holds_choice_iff (sound : meaning.IsSound) (json : value.IsJson) {dispatch : Dispatch}
    {branches : List (String × Form)} (choice : RegularChoice dispatch branches) :
    Schema.Holds meaning (Form.choice dispatch branches).schema value ↔ ∃ label form,
      dispatch.label? value = some label ∧ branches.lookup label = some form ∧
        Schema.Holds meaning form.schema value := by
  have bears {branch : String × Form} (membership : branch ∈ branches)
      (holds : Schema.Holds meaning branch.2.schema value) :
      dispatch.label? value = some branch.1 :=
    label?_of_holds sound json (choice.suited membership)
      (choice.branchRegular branch membership) holds
  rw [holds_choice_iff_exactlyOne choice, exactlyOne_iff, List.pairwise_map]
  constructor
  · rintro ⟨⟨property, membership, holds⟩, _⟩
    obtain ⟨⟨label, form⟩, inBranches, rfl⟩ := List.mem_map.mp membership
    exact ⟨label, form, bears inBranches holds,
      (lookup_eq_some_iff_mem choice.labelsDiffer).mpr inBranches, holds⟩
  · rintro ⟨label, form, _, entered, holds⟩
    have inBranches := lookup_eq_some_mem entered
    refine ⟨⟨_, List.mem_map.mpr ⟨_, inBranches, rfl⟩, holds⟩, ?_⟩
    have differ : branches.Pairwise fun first second => first.1 ≠ second.1 :=
      List.pairwise_map.mp choice.labelsDiffer
    refine differ.imp_of_mem fun inFirst inSecond differ both => differ ?_
    exact Option.some.inj ((bears inFirst both.1).symm.trans (bears inSecond both.2))

end

/-! ### Agreement with the grammar -/

/-- Whether a meaning agrees with the grammar on some names, once it does on the parts of a value. -/
structure Meaning.Agrees (meaning : Meaning) (names : List String) : Prop where
  sound : meaning.IsSound
  closed : ∀ name ∈ names, ∀ reference ∈ SchemaDocument.successors name, reference ∈ names
  anyJson : anyJsonLabel ∈ names → ∀ value : Value, value.IsJson → meaning anyJsonLabel value
  model : ∀ name : ModelName, name.label ∈ names → ∀ value : Value, value.IsJson →
    (∀ part ∈ (Form.model name).parts value,
      (Schema.Holds meaning part.1.schema part.2 ↔ Admits .schema part.1 part.2)) →
    (meaning name.label value ↔ Admits .schema (.model name) value)

def Form.RefersWithin (names : List String) (form : Form) : Prop :=
  ∀ reference ∈ form.references, reference ∈ names

theorem Form.refersWithin_branch {names : List String} {dispatch : Dispatch}
    {branches : List (String × Form)} (within : (Form.choice dispatch branches).RefersWithin names) :
    ∀ branch ∈ branches, branch.2.RefersWithin names := by
  rw [RefersWithin, references] at within
  induction branches with
  | nil => simp
  | cons branch rest inductionHypothesis =>
      rcases branch with ⟨label, form⟩
      rw [branchReferences, List.forall_mem_append] at within
      rw [List.forall_mem_cons]
      exact ⟨within.1, inductionHypothesis within.2⟩

theorem Form.refersWithin_position {names : List String} {positions : List Form} {distinct : Bool}
    (within : (Form.tuple positions distinct).RefersWithin names) :
    ∀ form ∈ positions, form.RefersWithin names := by
  rw [RefersWithin, references] at within
  induction positions with
  | nil => simp
  | cons form rest inductionHypothesis =>
      rw [positionReferences, List.forall_mem_append] at within
      rw [List.forall_mem_cons]
      exact ⟨within.1, inductionHypothesis within.2⟩

theorem ModelName.refersWithin_field {names : List String}
    (closed : ∀ name ∈ names, ∀ reference ∈ SchemaDocument.successors name, reference ∈ names)
    {name : ModelName} (inNames : name.label ∈ names) :
    ∀ field ∈ name.definition.fields, field.form.RefersWithin names := by
  intro field inFields reference inside
  apply closed name.label inNames
  rw [SchemaDocument.successors_label, List.mem_flatMap]
  exact ⟨field, inFields, inside⟩

theorem Form.refersWithin_of_mem_parts {names : List String}
    (closed : ∀ name ∈ names, ∀ reference ∈ SchemaDocument.successors name, reference ∈ names)
    {form : Form} (within : form.RefersWithin names) {value : Value} {part : Form × Value}
    (membership : part ∈ form.parts value) : part.1.RefersWithin names := by
  obtain ⟨inner, place⟩ := part
  cases mem_parts_iff.mp membership with
  | position inZip => exact refersWithin_position within _ (List.of_mem_zip inZip).1
  | item => exact within
  | entry => exact within
  | field inFields _ =>
      exact ModelName.refersWithin_field closed (within _ List.mem_cons_self) _ inFields

section
variable {meaning : Meaning} {names : List String} {value : Value}

/-- Where a meaning agrees with the grammar on the parts of a value, it agrees on the value. -/
theorem Meaning.Agrees.holds_step (agrees : meaning.Agrees names) (json : value.IsJson) {form : Form}
    (whole : form.isChoice = false) (regular : form.isRegular = true)
    (within : form.RefersWithin names)
    (parts : ∀ part ∈ form.parts value,
      (Schema.Holds meaning part.1.schema part.2 ↔ Admits .schema part.1 part.2)) :
    Schema.Holds meaning form.schema value ↔ Admits .schema form value := by
  cases form with
  | text rule => simp [holds_text_iff, admits_whole_iff whole, Form.parts]
  | number rule => simp [holds_number_iff regular, admits_whole_iff whole, Form.parts]
  | literal choices => simp [holds_literal_iff, admits_whole_iff whole, Form.parts]
  | flag => simp [holds_flag_iff, admits_whole_iff whole, Form.parts]
  | anyJson =>
      have holds := agrees.anyJson (within _ List.mem_cons_self) value json
      simp [Schema.Holds, schema, holds, admits_whole_iff whole, Form.parts, Fits]
  | tuple positions distinct =>
      rw [holds_tuple_iff, admits_whole_iff whole, forall₂_congr parts]
  | list item minLength unique =>
      rw [holds_list_iff, admits_whole_iff whole, forall₂_congr parts]
  | dictionary key item => simp [isRegular] at regular
  | choice dispatch branches => simp [isChoice] at whole
  | model name =>
      rw [← agrees.model name (within _ List.mem_cons_self) value json parts]
      simp [Schema.Holds, schema]

/-- Under a meaning that agrees with the grammar, the schema of a form says what the form admits. -/
theorem Meaning.Agrees.holds_iff (agrees : meaning.Agrees names) (json : value.IsJson) (form : Form)
    (regular : form.isRegular = true) (within : form.RefersWithin names) :
    Schema.Holds meaning form.schema value ↔ Admits .schema form value := by
  refine json.formInduction (motive := fun value form => form.RefersWithin names →
    (Schema.Holds meaning form.schema value ↔ Admits .schema form value)) ?_ ?_ form regular within
  · intro value json dispatch branches choice inductionHypothesis within
    rw [holds_choice_iff agrees.sound json choice, admits_choice_iff]
    refine exists_congr fun label => exists_congr fun form => and_congr_right fun _ =>
      and_congr_right fun entered => ?_
    have membership := lookup_eq_some_mem entered
    exact inductionHypothesis _ membership (refersWithin_branch within _ membership)
  · intro value json form whole regular inductionHypothesis within
    apply agrees.holds_step json whole regular within
    intro part membership
    exact inductionHypothesis part membership
      (refersWithin_of_mem_parts agrees.closed within membership)

end

/-! ### Documents -/

namespace SchemaDocument

section
variable {root : Schema} {meaning : Meaning} {value : Value}

theorem Explains.model_iff (explains : (closing root).Explains meaning)
    (differ : (reached root).Nodup) (name : ModelName) (json : value.IsJson) :
    meaning name.label value ↔
      name.label ∈ reached root ∧ Schema.Holds meaning name.schema value := by
  rw [explains name.label value json]
  simp only [lookup_closing differ, definitionOf?_label, Option.some.injEq]
  constructor
  · rintro ⟨schema, ⟨inReached, rfl⟩, holds⟩
    exact ⟨inReached, holds⟩
  · rintro ⟨inReached, holds⟩
    exact ⟨name.schema, ⟨inReached, rfl⟩, holds⟩

/-- Every meaning that explains a document agrees with the grammar. -/
theorem Explains.agrees (explains : (closing root).Explains meaning)
    (defined : ∀ name ∈ Schema.references root, name ∈ definedNames) :
    meaning.Agrees (reached root) := by
  obtain ⟨_, differ, closed⟩ := reached_closed defined
  refine ⟨?_, closed, ?_, ?_⟩
  · intro name value json means
    have holds := ((explains.model_iff differ name json).mp means).2
    obtain ⟨fits, parts⟩ := (name.holds_iff json).mp holds
    refine ⟨fits, ?_⟩
    rintro ⟨form, part⟩ membership choices rfl
    exact holds_literal_iff.mp (parts _ membership)
  · intro inReached value json
    rw [explains anyJsonLabel value json]
    refine ⟨[], (lookup_closing differ).mpr ⟨inReached, rfl⟩, trivial⟩
  · intro name inReached value json parts
    rw [explains.model_iff differ name json, name.holds_iff json, admits_whole_iff rfl,
      forall₂_congr parts]
    exact and_iff_right inReached

/-- The meaning that the grammar itself gives to the names of a document. -/
def grammarMeaning (names : List String) : Meaning := fun name value =>
  name ∈ names ∧
    (name = anyJsonLabel ∨ ∃ model, name = model.label ∧ Admits .schema (.model model) value)

theorem grammarMeaning_label_iff {names : List String} {name : ModelName} :
    grammarMeaning names name.label value ↔
      name.label ∈ names ∧ Admits .schema (.model name) value := by
  refine and_congr_right fun _ => ?_
  constructor
  · rintro (anyJson | ⟨model, same, admits⟩)
    · exact absurd anyJson name.label_ne_anyJsonLabel
    · exact ModelName.label_injective same ▸ admits
  · intro admits
    exact .inr ⟨name, rfl, admits⟩

theorem agrees_grammarMeaning {names : List String}
    (closed : ∀ name ∈ names, ∀ reference ∈ successors name, reference ∈ names) :
    (grammarMeaning names).Agrees names := by
  refine ⟨?_, closed, fun inNames _ _ => ⟨inNames, .inl rfl⟩, ?_⟩
  · intro name value json means
    obtain ⟨fits, parts⟩ := (admits_whole_iff rfl).mp (grammarMeaning_label_iff.mp means).2
    refine ⟨fits, ?_⟩
    rintro ⟨form, part⟩ membership choices rfl
    exact ((admits_whole_iff rfl).mp (parts _ membership)).1
  · intro name inNames value json parts
    rw [grammarMeaning_label_iff]
    exact and_iff_right inNames

/-- The schema of a model says what the model admits, though it is not among the names itself. -/
theorem holds_model_iff {names : List String} (agrees : meaning.Agrees names) (json : value.IsJson)
    (name : ModelName) (within : ∀ field ∈ name.definition.fields, field.form.RefersWithin names) :
    Schema.Holds meaning name.schema value ↔ Admits .schema (.model name) value := by
  rw [name.holds_iff json, admits_whole_iff rfl]
  refine and_congr_right fun _ => forall₂_congr fun part membership => ?_
  obtain ⟨inner, place⟩ := part
  cases Form.mem_parts_iff.mp membership with
  | @field _ _ field _ inFields _ =>
      exact agrees.holds_iff (json.part (Form.isPartOf_of_mem_parts membership)) field.form
        (name.field_isRegular field inFields) (within field inFields)

theorem definition_iff (agrees : meaning.Agrees (reached root)) (differ : (reached root).Nodup)
    (json : value.IsJson) (name : String) :
    (∃ schema, (closing root).definitions.lookup name = some schema ∧
      Schema.Holds meaning schema value) ↔ grammarMeaning (reached root) name value := by
  simp only [lookup_closing differ, definitionOf?_eq_some_iff]
  have modelled (model : ModelName) (inReached : model.label ∈ reached root) :
      Schema.Holds meaning model.schema value ↔ Admits .schema (.model model) value :=
    holds_model_iff agrees json model (ModelName.refersWithin_field agrees.closed inReached)
  constructor
  · rintro ⟨schema, ⟨inReached, ⟨rfl, rfl⟩ | ⟨model, rfl, rfl⟩⟩, holds⟩
    · exact ⟨inReached, .inl rfl⟩
    · exact ⟨inReached, .inr ⟨model, rfl, (modelled model inReached).mp holds⟩⟩
  · rintro ⟨inReached, rfl | ⟨model, rfl, admits⟩⟩
    · exact ⟨[], ⟨inReached, .inl ⟨rfl, rfl⟩⟩, trivial⟩
    · refine ⟨model.schema, ⟨inReached, .inr ⟨model, rfl, rfl⟩⟩, ?_⟩
      exact (modelled model inReached).mpr admits

theorem explains_grammarMeaning
    (defined : ∀ name ∈ Schema.references root, name ∈ definedNames) :
    (closing root).Explains (grammarMeaning (reached root)) := by
  obtain ⟨_, differ, closed⟩ := reached_closed defined
  intro name value json
  exact (definition_iff (agrees_grammarMeaning closed) differ json name).symm

/-- No other meaning explains the definitions. -/
theorem Explains.eq_grammarMeaning (explains : (closing root).Explains meaning)
    (defined : ∀ name ∈ Schema.references root, name ∈ definedNames) (json : value.IsJson)
    (name : String) : meaning name value ↔ grammarMeaning (reached root) name value := by
  rw [explains name value json]
  exact definition_iff (explains.agrees defined) (reached_closed defined).2.1 json name

/-- A document accepts what its root says under the meaning of the grammar. -/
theorem closing_accepts_iff (defined : ∀ name ∈ Schema.references root, name ∈ definedNames)
    {property : Prop} (stated : ∀ meaning : Meaning, meaning.Agrees (reached root) →
      (Schema.Holds meaning root value ↔ property)) :
    (closing root).Accepts value ↔ property := by
  constructor
  · rintro ⟨meaning, explains, _, holds⟩
    exact (stated meaning (explains.agrees defined)).mp holds
  · intro holds
    refine ⟨grammarMeaning (reached root), explains_grammarMeaning defined, ?_, ?_⟩
    · intro other explains name value json
      exact (explains.eq_grammarMeaning defined json name).symm
    · exact (stated _ (agrees_grammarMeaning (reached_closed defined).2.2)).mpr holds

end

end SchemaDocument

end AnimationGrammar
