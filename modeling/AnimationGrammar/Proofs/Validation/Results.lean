import AnimationGrammar.Proofs.Grammar.Membership
import AnimationGrammar.Proofs.Validation.Acceptance
import AnimationGrammar.Proofs.Value.Canonical

/-!
What validation makes of a value.

`Value.checked` is the validated value.  A text stays what it is, a number becomes its rounding, a flag
the value true; a list becomes a list of what its items become, and an object the record of the fields
that it gives.  Here uniform forms are dealt with, and not only regular ones.
-/

namespace AnimationGrammar

open Outcome

def Outcome.value : Outcome → Value
  | .ok value => value
  | .error _ => .null

/-- What validation makes of a value. -/
def Value.checked (value : Value) (form : Form) : Value := (value.check form).value

theorem Value.Passes.check_eq {value : Value} {form : Form} (passes : value.Passes form) :
    value.check form = .ok (value.checked form) := by
  obtain ⟨result, accepted⟩ := passes
  rw [checked, accepted, Outcome.value]

theorem Value.check_eq_ok_iff {value result : Value} {form : Form} :
    value.check form = .ok result ↔ value.Passes form ∧ value.checked form = result := by
  constructor
  · intro accepted
    exact ⟨⟨result, accepted⟩, by rw [checked, accepted, Outcome.value]⟩
  · rintro ⟨passes, rfl⟩
    exact passes.check_eq

/-! ### Parts put together -/

theorem map_value_ok (values : List Value) :
    (values.map Except.ok : List Outcome).map Outcome.value = values := by
  rw [List.map_map]
  exact List.map_id' values

theorem finishList_eq_ok {raw : List Value} {minLength : Option Nat} {unique : Bool}
    {outcomes : List Outcome} {result : Value}
    (accepted : finishList raw minLength unique outcomes = .ok result) :
    result = .list (outcomes.map Outcome.value) := by
  rw [finishList] at accepted
  split at accepted
  · simp at accepted
  next values collected =>
      rw [collect_atPositions_eq_ok_iff] at collected
      rw [collected, map_value_ok]
      simp only at accepted
      split at accepted
      · exact absurd accepted refuse_ne_ok
      · split at accepted
        · exact absurd accepted refuse_ne_ok
        · exact (Except.ok.inj accepted).symm

theorem finishTuple_eq_ok {size actual : Nat} {distinct : Bool} {outcomes : List Outcome}
    {result : Value} (accepted : finishTuple size actual distinct outcomes = .ok result) :
    result = .tuple (outcomes.map Outcome.value) := by
  rw [finishTuple] at accepted
  split at accepted
  · exact absurd accepted refuse_ne_ok
  · split at accepted
    · simp at accepted
    next values collected =>
        rw [collect_atPositions_eq_ok_iff] at collected
        rw [collected, map_value_ok]
        split at accepted
        · exact absurd accepted refuse_ne_ok
        · exact (Except.ok.inj accepted).symm

attribute [local simp] finishDictionary

theorem finishDictionary_cons_eq_ok_iff {key : TextRule} {name : Atom} {outcome : Outcome}
    {rest : List (Atom × Outcome)} {entries : List (Atom × Value)} :
    finishDictionary key ((name, outcome) :: rest) = .ok entries ↔
      key.checkKey name = [] ∧ ∃ value later, outcome = .ok value ∧
        finishDictionary key rest = .ok later ∧ entries = (name.asText, value) :: later := by
  cases outcome with
  | error faults =>
      cases tail : finishDictionary key rest <;> simp [tail]
  | ok value =>
      cases tail : finishDictionary key rest with
      | error faults => simp [tail]
      | ok later =>
          cases keys : key.checkKey name with
          | nil => simp [tail, keys, under, Outcome.faults, eq_comm]
          | cons fault faults => simp [tail, keys]

theorem finishDictionary_eq_ok_iff {key : TextRule} {outcomes : List (Atom × Outcome)}
    {entries : List (Atom × Value)} :
    finishDictionary key outcomes = .ok entries ↔
      (∀ outcome ∈ outcomes, key.checkKey outcome.1 = []) ∧
        (outcomes.map fun outcome => (outcome.1.asText, outcome.2)) =
          entries.map fun entry => (entry.1, .ok entry.2) := by
  induction outcomes generalizing entries with
  | nil => cases entries <;> simp
  | cons outcome rest inductionHypothesis =>
      rcases outcome with ⟨name, outcome⟩
      rw [finishDictionary_cons_eq_ok_iff, List.forall_mem_cons, and_assoc]
      refine and_congr_right fun _ => ?_
      constructor
      · rintro ⟨value, later, rfl, accepted, rfl⟩
        obtain ⟨keys, same⟩ := inductionHypothesis.mp accepted
        exact ⟨keys, by rw [List.map_cons, List.map_cons, same]⟩
      · rintro ⟨keys, same⟩
        cases entries with
        | nil => simp at same
        | cons entry later =>
            simp only [List.map_cons, List.cons.injEq, Prod.mk.injEq] at same
            obtain ⟨⟨named, rfl⟩, same⟩ := same
            refine ⟨entry.2, later, rfl, inductionHypothesis.mpr ⟨keys, same⟩, ?_⟩
            rw [named]

theorem finishDictionary_eq_error {key : TextRule} {outcomes : List (Atom × Outcome)}
    {faults : List Fault} (refused : finishDictionary key outcomes = .error faults) :
    faults = outcomes.flatMap fun entry =>
      key.checkKey entry.1 ++ (under (.key entry.1) entry.2).faults := by
  induction outcomes generalizing faults with
  | nil => cases refused
  | cons entry rest inductionHypothesis =>
      rcases entry with ⟨name, outcome⟩
      rw [List.flatMap_cons]
      cases tail : finishDictionary key rest with
      | error later =>
          have joined : faults = key.checkKey name ++ (under (.key name) outcome).faults ++ later := by
            cases outcome <;> simpa [tail, eq_comm] using refused
          rw [joined, inductionHypothesis tail]
      | ok entries =>
          obtain ⟨keys, same⟩ := finishDictionary_eq_ok_iff.mp tail
          have none : (rest.flatMap fun entry =>
              key.checkKey entry.1 ++ (under (.key entry.1) entry.2).faults) = [] := by
            rw [List.flatMap_eq_nil_iff]
            intro entry membership
            have inEntries := List.mem_map_of_mem (f := fun outcome : Atom × Outcome =>
              (outcome.1.asText, outcome.2)) membership
            rw [same] at inEntries
            obtain ⟨given, _, paired⟩ := List.mem_map.mp inEntries
            rw [keys entry membership, List.nil_append, ← (Prod.mk.inj paired).2]
            rfl
          rw [none, List.append_nil]
          cases outcome with
          | error own => simpa [tail, eq_comm] using refused
          | ok value =>
              simp only [finishDictionary, tail] at refused
              split at refused
              · cases refused
              · exact (Except.error.inj refused).symm

theorem TextRule.checkKey_eq_nil_iff {rule : TextRule} {key : Atom} :
    rule.checkKey key = [] ↔ ∃ content, key.asText = .text content ∧ rule.Accepts content := by
  simp [checkKey_eq_nil, read_eq_ok_iff, check_eq_ok_iff, Atom.readText_eq_ok_iff]

theorem TextRule.checkKey_text {rule : TextRule} {name : String} :
    rule.checkKey (.text name) = [] ↔ rule.Accepts name := by
  simp [checkKey_eq_nil_iff]

namespace Value

theorem checkSettled_dictionary_eq_ok_iff {key : TextRule} {item : Form}
    {entries : List (Atom × Value)} {result : Value} :
    (Value.mapping entries).checkSettled (.dictionary key item) = .ok result ↔
      (∀ entry ∈ entries, key.checkKey entry.1 = [] ∧ entry.2.Passes item) ∧
        result = .mapping (entries.map fun entry => (entry.1.asText, entry.2.checked item)) := by
  rw [checkSettled]
  constructor
  · intro accepted
    cases finished : finishDictionary key (entries.map fun entry =>
        (entry.1, entry.2.check item)) with
    | error faults => simp [finished, Except.map] at accepted
    | ok values =>
        obtain ⟨keys, same⟩ := finishDictionary_eq_ok_iff.mp finished
        rw [List.forall_mem_map] at keys
        rw [List.map_map] at same
        constructor
        · intro entry membership
          refine ⟨keys entry membership, ?_⟩
          have inValues := List.mem_map_of_mem (f := fun entry : Atom × Value =>
            (entry.1.asText, entry.2.check item)) membership
          rw [show (entries.map fun entry => (entry.1.asText, entry.2.check item)) = _ from same]
            at inValues
          obtain ⟨value, _, paired⟩ := List.mem_map.mp inValues
          exact ⟨value.2, (congrArg Prod.snd paired).symm⟩
        · have values_eq := congrArg (List.map fun outcome => (outcome.1, Outcome.value outcome.2)) same
          rw [List.map_map, List.map_map] at values_eq
          rw [finished, Except.map, Except.ok.injEq] at accepted
          rw [← accepted, Value.mapping.injEq]
          exact (List.map_id' values).symm.trans values_eq.symm
  · rintro ⟨each, rfl⟩
    have finished : finishDictionary key (entries.map fun entry => (entry.1, entry.2.check item)) =
        .ok (entries.map fun entry => (entry.1.asText, entry.2.checked item)) := by
      rw [finishDictionary_eq_ok_iff, List.forall_mem_map, List.map_map, List.map_map]
      refine ⟨fun entry membership => (each entry membership).1, ?_⟩
      refine List.map_congr_left fun entry membership => ?_
      simp [(each entry membership).2.check_eq]
    rw [finished]
    rfl

/-- A JSON value passes a uniform form exactly when the form admits it. -/
theorem IsJson.passes_iff_of_uniform {value : Value} (json : value.IsJson) {form : Form}
    (uniform : form.isUniform = true) : value.Passes form ↔ Admits .validation form value := by
  cases form with
  | dictionary key item =>
      have whole : (Form.dictionary key item).isChoice = false := rfl
      rw [passes_whole_iff whole, admits_whole_iff whole]
      cases value, json using jsonCases with
      | mapping entries json =>
          have fits : (Form.dictionary key item).Fits .validation (.mapping entries) ↔
              ∀ entry ∈ entries, key.checkKey entry.1 = [] := by
            have fits_iff : (Form.dictionary key item).Fits .validation (.mapping entries) ↔
                ∀ entry ∈ entries, ∃ content, entry.1 = .text content ∧ key.Accepts content := by
              simp [Form.Fits]
            rw [fits_iff]
            refine forall₂_congr fun entry membership => ?_
            obtain ⟨name, named⟩ := json.key membership
            simp [named, TextRule.checkKey_text]
          simp only [checkSettled_dictionary_eq_ok_iff, exists_and_left, exists_eq, and_true]
          rw [fits, Form.parts, List.forall_mem_map, forall₂_and]
          refine and_congr_right fun _ => forall₂_congr fun entry membership => ?_
          exact (json.entry membership).passes_iff item uniform
      | atom | list => simp [checkSettled, checkWhole, refuse, Form.Fits]
  | _ => exact json.passes_iff _ uniform

section
variable {value : Value} {form : Form}

theorem checked_whole (whole : form.isChoice = false) :
    value.checked form = (value.checkSettled form).value := by
  rw [checked, check_whole whole]

theorem checked_choice {dispatch : Dispatch} {branches : List (String × Form)} {label : String}
    (found : dispatch.label? value = some label) (entered : branches.lookup label = some form) :
    value.checked (.choice dispatch branches) = value.checked form := by
  rw [checked, checked, check_choice found entered]
  cases value.check form <;> rfl

end

theorem checked_atomic {value result : Value} {form : Form} (atomic : form.isAtomic = true)
    (taken : TakenWhole form value result) : value.checked form = result := by
  rw [checked, check_atomic atomic, checkWhole_eq_ok_iff.mpr taken]
  rfl

theorem checked_text {rule : TextRule} {content : String} (accepted : rule.Accepts content) :
    (Value.text content).checked (.text rule) = .text content :=
  checked_atomic rfl (.text accepted.check_eq)

theorem checked_number {rule : NumberRule} {n m : Numeral} (accepted : rule.check n = .ok m) :
    (Value.number n).checked (.number rule) = .number m :=
  checked_atomic rfl (.number accepted)

theorem checked_literal {choices : List String} {content : String} (chosen : content ∈ choices) :
    (Value.text content).checked (.literal choices) = .text content :=
  checked_atomic rfl (.literal chosen)

theorem checked_flag {value : Value} (set : Reading.validation.flag value) :
    value.checked .flag = .boolean true := by
  rcases set with rfl | ⟨n, rfl, one⟩
  · rfl
  · exact checked_atomic rfl (.one one)

theorem IsJson.checked_anyJson {value : Value} (json : value.IsJson) :
    value.checked .anyJson = value := by
  rw [checked_whole rfl, checkSettled_anyJson, json.checkJson_eq]
  rfl

theorem checked_list {items : List Value} {item : Form} {minLength : Option Nat} {unique : Bool}
    (passes : (Value.list items).Passes (.list item minLength unique)) :
    (Value.list items).checked (.list item minLength unique) =
      .list (items.map fun part => part.checked item) := by
  obtain ⟨result, accepted⟩ := (passes_whole_iff rfl).mp passes
  rw [checked_whole rfl, accepted, Outcome.value, finishList_eq_ok accepted, List.map_map]
  rfl

theorem checked_tuple {items : List Value} {positions : List Form} {distinct : Bool}
    (passes : (Value.list items).Passes (.tuple positions distinct))
    (sameLength : items.length = positions.length) :
    (Value.list items).checked (.tuple positions distinct) =
      .tuple ((items.zip positions).map fun part => part.1.checked part.2) := by
  obtain ⟨result, accepted⟩ := (passes_whole_iff rfl).mp passes
  rw [checked_whole rfl, accepted, Outcome.value, finishTuple_eq_ok accepted, checkPositions_eq,
    sameLength, List.drop_length, List.map_nil, List.append_nil, List.map_map]
  rfl

theorem checked_dictionary {entries : List (Atom × Value)} {key : TextRule} {item : Form}
    (passes : (Value.mapping entries).Passes (.dictionary key item)) :
    (Value.mapping entries).checked (.dictionary key item) =
      .mapping (entries.map fun entry => (entry.1.asText, entry.2.checked item)) := by
  obtain ⟨result, accepted⟩ := (passes_whole_iff rfl).mp passes
  rw [checked_whole rfl, accepted, Outcome.value]
  exact (checkSettled_dictionary_eq_ok_iff.mp accepted).2

theorem IsJson.checked_dictionary {entries : List (Atom × Value)} {key : TextRule} {item : Form}
    (json : (Value.mapping entries).IsJson)
    (passes : (Value.mapping entries).Passes (.dictionary key item)) :
    (Value.mapping entries).checked (.dictionary key item) =
      .mapping (entries.map fun entry => (entry.1, entry.2.checked item)) := by
  rw [Value.checked_dictionary passes, json.keys_asText fun part => part.checked item]

theorem checked_model {entries : List (Atom × Value)} {name : ModelName}
    (passes : (Value.mapping entries).Passes (.model name)) :
    (Value.mapping entries).checked (.model name) =
      .record name (acceptedFields entries name.definition.fields) := by
  obtain ⟨result, accepted⟩ := (passes_whole_iff rfl).mp passes
  rw [checked_whole rfl, accepted, Outcome.value]
  exact (assemble_entryOutcomes_eq_ok_iff.mp accepted).2.2.2

end Value

/-! ### One place -/

/-- What a form that is no union makes of a value, in terms of what is made of its parts. -/
inductive Yields : Form → Value → Value → Prop
  | text {rule content} : Yields (.text rule) (.text content) (.text content)
  | number {rule n m} : rule.check n = .ok m → Yields (.number rule) (.number n) (.number m)
  | literal {choices content} : Yields (.literal choices) (.text content) (.text content)
  | flag {value} : Reading.validation.flag value → Yields .flag value (.boolean true)
  | anyJson {value} : Yields .anyJson value value
  | tuple {positions distinct items} : items.length = positions.length →
      Yields (.tuple positions distinct) (.list items)
        (.tuple ((items.zip positions).map fun part => part.1.checked part.2))
  | list {item minLength unique items} : Yields (.list item minLength unique) (.list items)
      (.list (items.map fun part => part.checked item))
  | dictionary {key item entries} : Yields (.dictionary key item) (.mapping entries)
      (.mapping (entries.map fun entry => (entry.1, entry.2.checked item)))
  | model {name entries} : Yields (.model name) (.mapping entries)
      (.record name (acceptedFields entries name.definition.fields))

namespace Admits

variable {form : Form} {value : Value}

theorem passes (admits : Admits .validation form value) (json : value.IsJson)
    (uniform : form.isUniform = true) : value.Passes form :=
  (json.passes_iff_of_uniform uniform).mpr admits

theorem yields (admits : Admits .validation form value) (json : value.IsJson)
    (uniform : form.isUniform = true) (whole : form.isChoice = false) :
    Yields form value (value.checked form) := by
  have passes := admits.passes json uniform
  have fits := ((admits_whole_iff whole).mp admits).1
  cases form with
  | text rule =>
      obtain ⟨content, rfl, accepted⟩ := fits
      rw [Value.checked_text accepted]
      exact .text
  | number rule =>
      obtain ⟨n, rfl, m, accepted⟩ := fits
      rw [Value.checked_number accepted]
      exact .number accepted
  | literal choices =>
      obtain ⟨content, chosen, rfl⟩ := fits
      rw [Value.checked_literal chosen]
      exact .literal
  | flag =>
      rw [Value.checked_flag fits]
      exact .flag fits
  | anyJson =>
      rw [json.checked_anyJson]
      exact .anyJson
  | tuple positions distinct =>
      obtain ⟨items, rfl, sameLength, _⟩ := fits
      rw [Value.checked_tuple passes sameLength]
      exact .tuple sameLength
  | list item minLength unique =>
      obtain ⟨items, rfl, _⟩ := fits
      rw [Value.checked_list passes]
      exact .list
  | dictionary key item =>
      obtain ⟨entries, rfl, _⟩ := fits
      rw [json.checked_dictionary passes]
      exact .dictionary
  | choice dispatch branches => exact fits.elim
  | model name =>
      obtain ⟨entries, rfl, _⟩ := fits
      rw [Value.checked_model passes]
      exact .model

end Admits

/-! ### Kinds of results -/

theorem NumberRule.check_place {rule : NumberRule} {n m : Numeral} (accepted : rule.check n = .ok m) :
    ∃ x, n.toDouble? = some x ∧ m.place = (Numeral.double x).place ∧
      (m = .double x ∨ ∃ value, m = .integer value) := by
  cases whole : rule.whole with
  | false =>
      obtain ⟨x, rounded, rfl⟩ := check_fractional whole accepted
      exact ⟨x, rounded, rfl, .inl rfl⟩
  | true =>
      obtain ⟨x, value, rounded, -, -, exact, rfl⟩ := (check_integer_eq_ok_iff whole).mp accepted
      have place : (Numeral.double x).place = (Numeral.integer value).place :=
        Numeral.place_of_toInt? exact
      exact ⟨x, rounded, place.symm, .inr ⟨value, rfl⟩⟩

theorem NumberRule.check_isOrdered {rule : NumberRule} {n m : Numeral} (ordered : n.IsOrdered)
    (accepted : rule.check n = .ok m) : m.IsOrdered := by
  obtain ⟨x, rounded, _, rfl | ⟨value, rfl⟩⟩ := check_place accepted
  · exact Numeral.toDouble?_isOrdered ordered rounded
  · simp [Numeral.IsOrdered]

theorem Yields.kind?_eq {form : Form} {value result : Value} (yields : Yields form value result)
    {kind : Kind} (kinds : form.kindOf? = some kind) : result.kind? = some kind := by
  cases yields with
  | anyJson => simp [Form.kindOf?] at kinds
  | _ => exact kinds

/-- What is made of a value is of the same kind, unless it is a flag. -/
theorem Yields.sameKind {form : Form} {value result : Value} (yields : Yields form value result) :
    result.kind? = value.kind? ∨ result = .boolean true := by
  cases yields with
  | flag => exact .inr rfl
  | _ => exact .inl rfl

theorem Yields.hasKind {form : Form} {value result : Value} (yields : Yields form value result)
    (json : value.IsJson) : result.HasKind := by
  cases yields with
  | number accepted => exact NumberRule.check_isOrdered json.node accepted
  | anyJson => exact json.hasKind
  | _ => trivial

namespace Admits

variable {form : Form} {value : Value}

theorem checked_byKind {branches : List (Kind × Form)}
    (admits : Admits .validation (.byKind branches) value) :
    ∃ branch ∈ branches, Admits .validation branch.2 value ∧
      value.checked (.byKind branches) = value.checked branch.2 := by
  obtain ⟨label, form, found, entered, inner⟩ := admits_choice_iff.mp admits
  obtain ⟨branch, membership, same⟩ := List.mem_map.mp (lookup_eq_some_mem entered)
  obtain ⟨rfl, rfl⟩ := Prod.mk.inj same
  exact ⟨branch, membership, inner, Value.checked_choice found entered⟩

/-- Where a value settles, validation makes of it what the form makes that is left. -/
theorem settled (admits : Admits .validation form value) (json : value.IsJson)
    (uniform : form.isUniform = true) : ∃ inner, Yields inner value (value.checked form) := by
  induction admits with
  | branch found entered _ inductionHypothesis =>
      rw [Value.checked_choice found entered]
      apply inductionHypothesis json
      exact Form.isUniform_of_isRegular
        ((Form.regularChoice_iff.mp uniform).branchRegular _ (lookup_eq_some_mem entered))
  | whole fits parts => exact ⟨_, (Admits.whole fits parts).yields json uniform fits.isWhole⟩

/-- A form of one kind makes values of this kind; the only unions of one kind are those on the number
of items. -/
theorem checked_kind? (admits : Admits .validation form value) (json : value.IsJson)
    (regular : form.isRegular = true) {kind : Kind} (kinds : form.kindOf? = some kind) :
    (value.checked form).kind? = some kind := by
  have uniform := Form.isUniform_of_isRegular regular
  by_cases whole : form.isChoice = false
  · exact (admits.yields json uniform whole).kind?_eq kinds
  · cases form with
    | choice dispatch branches =>
        obtain ⟨rfl, rfl⟩ := Form.eq_length_of_kindOf? kinds
        obtain ⟨label, form, found, entered, admits⟩ := admits_choice_iff.mp admits
        have choice := Form.regularChoice_iff.mp regular
        have inBranches := lookup_eq_some_mem entered
        have innerUniform := Form.isUniform_of_isRegular (choice.branchRegular _ inBranches)
        rw [Value.checked_choice found entered]
        cases choice.suited inBranches with
        | length => exact (admits.yields json innerUniform rfl).kind?_eq rfl
    | _ => exact absurd rfl whole

end Admits

/-! ### Values that are null -/

theorem Form.kindOf?_ne_null (form : Form) : form.kindOf? ≠ some .null := by
  cases form with
  | choice dispatch branches => cases dispatch <;> simp [kindOf?]
  | _ => simp [kindOf?]

theorem Admits.eq_anyJson_of_null {form : Form} (admits : Admits .validation form .null)
    (regular : form.isRegular = true) : form = .anyJson := by
  by_cases whole : form.isChoice = false
  · have fits := ((admits_whole_iff whole).mp admits).1
    cases form <;> simp_all [Form.Fits, Reading.validation, Form.isChoice]
  · cases form with
    | choice dispatch branches =>
        obtain ⟨label, form, found, entered, _⟩ := admits_choice_iff.mp admits
        cases (Form.regularChoice_iff.mp regular).suited (lookup_eq_some_mem entered) with
        | kind kinds =>
            obtain rfl := Kind.label_injective (Option.some.inj found)
            exact absurd kinds form.kindOf?_ne_null
        | _ => simp [Dispatch.label?, predicateLabel?, Value.get?, Value.items?] at found
    | _ => exact absurd rfl whole

theorem Admits.checked_text_eq_null_iff {form : Form} {value : Value}
    (admits : Admits .validation form value) (json : value.IsJson) (regular : form.isRegular = true) :
    (value.checked form).canonicalText = Value.null.canonicalText ↔ value = .null := by
  constructor
  · intro same
    obtain ⟨inner, yields⟩ := admits.settled json (Form.isUniform_of_isRegular regular)
    have isNull := (yields.hasKind json).kind?_congr (b := Value.null) trivial same
    rcases yields.sameKind with sameKind | isTrue
    · rw [sameKind] at isNull
      cases value with
      | atom a => cases a <;> simp_all [Value.kind?, Value.atomKind?]
      | _ => simp [Value.kind?, Value.atomKind?] at isNull
    · rw [isTrue] at isNull
      simp [Value.kind?, Value.atomKind?] at isNull
  · rintro rfl
    rw [admits.eq_anyJson_of_null regular, json.checked_anyJson]

/-! ### Texts of records -/

/-- The text of a field in the record that is made of an object: null if the field is not given. -/
def Field.resultText (entries : List (Atom × Value)) (field : Field) : String :=
  ((lookupText field.name entries).map fun value => (value.checked field.form).canonicalText).getD
    Value.null.canonicalText

theorem canonicalFields_eq (fields : List (String × Value)) : Value.canonicalFields fields =
    fields.map fun field => (field.1, field.2.canonicalText) := by
  induction fields with
  | nil => rfl
  | cons field rest inductionHypothesis =>
      rcases field with ⟨name, value⟩
      rw [Value.canonicalFields, inductionHypothesis, List.map_cons]

theorem lookup_map_snd {α β : Type} (f : α → β) (name : String) (members : List (String × α)) :
    (members.map fun member => (member.1, f member.2)).lookup name = (members.lookup name).map f := by
  induction members with
  | nil => rfl
  | cons member rest inductionHypothesis =>
      rw [List.map_cons, List.lookup_cons, List.lookup_cons, inductionHypothesis]
      split <;> rfl

theorem ModelName.field_eq_of_name {name : ModelName} {first second : Field}
    (inFields : first ∈ name.definition.fields) (inFieldsToo : second ∈ name.definition.fields)
    (sameName : first.name = second.name) : first = second :=
  List.inj_on_of_nodup_map name.fieldNames_nodup inFields inFieldsToo sameName

section
variable {entries : List (Atom × Value)} {name : ModelName}

theorem Admits.field {reading : Reading} (admits : Admits reading (.model name) (.mapping entries))
    {field : Field} (inFields : field ∈ name.definition.fields) {value : Value}
    (given : lookupText field.name entries = some value) : Admits reading field.form value :=
  ((admits_whole_iff rfl).mp admits).2 (field.form, value)
    (Form.mem_parts_model.mpr ⟨field, inFields, rfl, lookupText_eq_some_mem given⟩)

theorem Admits.lookup_fields (admits : Admits .validation (.model name) (.mapping entries))
    (json : (Value.mapping entries).IsJson) {field : Field}
    (inFields : field ∈ name.definition.fields) :
    (acceptedFields entries name.definition.fields).lookup field.name =
      (lookupText field.name entries).map fun value => value.checked field.form := by
  apply Option.ext
  intro result
  rw [lookup_acceptedFields, mem_acceptedFields, Option.map_eq_some_iff]
  constructor
  · rintro ⟨other, inFieldsToo, sameName, value, given, accepted⟩
    obtain rfl := ModelName.field_eq_of_name inFieldsToo inFields sameName
    exact ⟨value, given, (Value.check_eq_ok_iff.mp accepted).2⟩
  · rintro ⟨value, given, rfl⟩
    have passes := (admits.field inFields given).passes (json.entry (lookupText_eq_some_mem given))
      (Form.isUniform_of_isRegular (name.field_isRegular field inFields))
    exact ⟨field, inFields, rfl, value, given, passes.check_eq⟩

section
variable {value : Value} {key : String} {form : Form}

theorem Admits.of_get? {reading : Reading} (admits : Admits reading (.model name) value)
    (declared : name.definition.formOf? (.text key) = some form) {inner : Value}
    (given : value.get? key = some inner) : Admits reading form inner := by
  obtain ⟨⟨entries, rfl, -⟩, parts⟩ := (admits_whole_iff rfl).mp admits
  exact parts (form, inner) (Form.mem_parts_of_declared declared (lookupText_eq_some_mem given))

theorem Admits.get?_checked (admits : Admits .validation (.model name) value) (json : value.IsJson)
    (declared : name.definition.formOf? (.text key) = some form) :
    (value.checked (.model name)).get? key = (value.get? key).map fun inner => inner.checked form := by
  obtain ⟨⟨entries, rfl, -⟩, -⟩ := (admits_whole_iff rfl).mp admits
  obtain ⟨field, inFields, same, rfl⟩ := ModelName.formOf?_eq_some declared
  obtain rfl := Atom.text.inj same
  rw [Value.checked_model (admits.passes json rfl)]
  exact admits.lookup_fields json inFields

end

/-- A record is written with all fields of its model. -/
theorem Admits.record_text (admits : Admits .validation (.model name) (.mapping entries))
    (json : (Value.mapping entries).IsJson) :
    ((Value.mapping entries).checked (.model name)).canonicalText =
      canonicalObject (name.definition.fields.map fun field =>
        (field.name, field.resultText entries)) := by
  rw [Value.checked_model (admits.passes json rfl), Value.canonicalText, Definition.fieldNames,
    List.map_map]
  refine congrArg canonicalObject (List.map_congr_left fun field inFields => ?_)
  rw [Function.comp_apply, canonicalFields_eq, lookup_map_snd, admits.lookup_fields json inFields,
    Option.map_map]
  rfl

end

end AnimationGrammar
