import AnimationGrammar.Proofs.Validation.Results

/-!
The shape of validated values.

`Conforms` says what validation makes of values by a form: texts that follow their rule, numbers as they
come out of theirs, tuples of the right length, records that hold what their model asks for.  The value
that is validated need not be JSON for this.  Validation takes a record as it is, so only the records in
it have to conform already.
-/

namespace AnimationGrammar

open Outcome Value

/-- What a model asks of the fields of a record, apart from the values. -/
structure Definition.Holds (fields : List (String × Value)) (definition : Definition) : Prop where
  declared : ∀ member ∈ fields, member.1 ∈ definition.fieldNames
  namesDiffer : (fields.map Prod.fst).Nodup
  given : ∀ field ∈ definition.fields, field.required = true →
    (fields.lookup field.name).isSome = true
  met : ∀ rule ∈ definition.rules, rule.failure? fields = none

/-- What the validated values of a form look like. -/
inductive Conforms : Form → Value → Prop
  | text {rule content} : rule.Accepts content → Conforms (.text rule) (.text content)
  | number {rule n m} : NumberRule.check rule n = .ok m → Conforms (.number rule) (.number m)
  | literal {choices content} : content ∈ choices → Conforms (.literal choices) (.text content)
  | flag : Conforms .flag (.boolean true)
  | anyJson {value} : value.checkJson = .ok value → Conforms .anyJson value
  | tuple {positions distinct items} : items.length = positions.length →
      (∀ part ∈ positions.zip items, Conforms part.1 part.2) →
      (distinct = true → startsWithEqualNumbers items = false) →
      Conforms (.tuple positions distinct) (.tuple items)
  | list {item minLength unique items} : minLength.getD 0 ≤ items.length →
      (∀ part ∈ items, Conforms item part) → Conforms (.list item minLength unique) (.list items)
  | dictionary {key item entries} :
      (∀ entry ∈ entries, ∃ content, entry.1 = .text content ∧ key.Accepts content) →
      (∀ entry ∈ entries, Conforms item entry.2) →
      Conforms (.dictionary key item) (.mapping entries)
  | choice {dispatch branches label form value} : branches.lookup label = some form →
      Conforms form value → Conforms (.choice dispatch branches) value
  | model {name fields} : name.definition.Holds fields →
      (∀ field ∈ name.definition.fields, ∀ value, fields.lookup field.name = some value →
        Conforms field.form value) →
      Conforms (.model name) (.record name fields)

/-- The values in which every record conforms to its model. -/
inductive Value.IsSound : Value → Prop
  | atom (a) : IsSound (.atom a)
  | list {items} : (∀ item ∈ items, IsSound item) → IsSound (.list items)
  | tuple {items} : (∀ item ∈ items, IsSound item) → IsSound (.tuple items)
  | mapping {entries} : (∀ entry ∈ entries, IsSound entry.2) → IsSound (.mapping entries)
  | record {name fields} : Conforms (.model name) (.record name fields) →
      IsSound (.record name fields)

theorem Value.IsJson.isSound {value : Value} (json : value.IsJson) : value.IsSound := by
  induction value, json using jsonInduction with
  | atom a json => exact .atom a
  | list items json inductionHypothesis => exact .list inductionHypothesis
  | mapping entries json inductionHypothesis => exact .mapping inductionHypothesis

/-! ### One place -/

section
variable {value result : Value} {form : Form}

theorem Form.Settles.conforms {labels : List String} {inner : Form}
    (settles : form.Settles value labels inner) (conforms : Conforms inner result) :
    Conforms form result := by
  induction settles with
  | whole => exact conforms
  | branch _ entered _ inductionHypothesis => exact .choice entered (inductionHypothesis conforms)

theorem conforms_of_settled
    (settled : ∀ inner, value.checkSettled inner = .ok result → Conforms inner result)
    (accepted : value.check form = .ok result) : Conforms form result := by
  rcases Form.settles_or_strays value form with
    ⟨labels, inner, settles, _⟩ | ⟨labels, cause, strays, _⟩
  · rw [check_of_settles settles, underLabels_eq_ok_iff] at accepted
    exact settles.conforms (settled inner accepted)
  · rw [check_of_strays strays, underLabels_eq_ok_iff] at accepted
    exact absurd accepted refuse_ne_ok

theorem conforms_of_anyJson (accepted : value.checkSettled .anyJson = .ok result) :
    Conforms .anyJson result := by
  rw [checkSettled_anyJson] at accepted
  exact .anyJson (checkJson_again accepted)

theorem conforms_of_checkWhole (sound : value.IsSound) (notFree : form ≠ .anyJson)
    (accepted : value.checkWhole form = .ok result) : Conforms form result := by
  cases checkWhole_eq_ok_iff.mp accepted with
  | text passed =>
      obtain ⟨content, _, checked⟩ := TextRule.read_eq_ok_iff.mp passed
      obtain ⟨follows, rfl⟩ := TextRule.check_eq_ok_iff.mp checked
      exact .text follows
  | number passed => exact .number passed
  | literal chosen => exact .literal chosen
  | flag | one => exact .flag
  | anyJson => exact absurd rfl notFree
  | record =>
      cases sound with
      | record conforms => exact conforms

theorem conforms_of_finishList {items : List Value} {item : Form} {minLength : Option Nat}
    {unique : Bool}
    (each : ∀ part ∈ items, ∀ {form result}, part.check form = .ok result → Conforms form result)
    (accepted : finishList items minLength unique (items.map fun part => part.check item) =
      .ok result) : Conforms (.list item minLength unique) result := by
  obtain ⟨passes, enough, _⟩ := finishList_passes_iff.mp ⟨result, accepted⟩
  rw [finishList_eq_ok accepted, List.map_map]
  refine .list (by simpa using enough) (List.forall_mem_map.mpr fun part membership => ?_)
  exact each part membership (passes part membership).check_eq

theorem conforms_of_finishTuple {items : List Value} {positions : List Form} {distinct : Bool}
    (each : ∀ part ∈ items, ∀ {form result}, part.check form = .ok result → Conforms form result)
    (accepted : finishTuple positions.length items.length distinct (checkPositions items positions) =
      .ok result) : Conforms (.tuple positions distinct) result := by
  obtain ⟨fits, values, same, differ⟩ := finishTuple_passes_iff.mp ⟨result, accepted⟩
  obtain ⟨enough, passes⟩ := checkPositions_passes_iff.mp ⟨values, same⟩
  have length : items.length = positions.length := le_antisymm fits enough
  have outcomes := checkPositions_eq items positions
  rw [length, List.drop_length, List.map_nil, List.append_nil, same] at outcomes
  have sameLength : values.length = positions.length := by
    simpa [length] using congrArg List.length outcomes
  rw [finishTuple_eq_ok accepted, same, map_value_ok]
  refine .tuple sameLength (fun part membership => ?_) differ
  obtain ⟨position, bound, rfl⟩ := List.mem_iff_getElem.mp membership
  have inValues : position < values.length := by simp at bound; omega
  have here : Except.ok values[position] = items[position].check positions[position] := by
    have found := congrArg (fun outcomes => outcomes[position]?) outcomes
    simpa [inValues, length ▸ sameLength ▸ inValues, sameLength ▸ inValues] using found
  rw [List.getElem_zip]
  exact each _ (List.getElem_mem _) here.symm

theorem conforms_of_assemble {entries : List (Atom × Value)} {name : ModelName}
    (each : ∀ entry ∈ entries, ∀ {form result}, entry.2.check form = .ok result →
      Conforms form result)
    (accepted : name.assemble (entryOutcomes name.definition entries) = .ok result) :
    Conforms (.model name) result := by
  obtain ⟨fits, _, met, rfl⟩ := assemble_entryOutcomes_eq_ok_iff.mp accepted
  refine .model ⟨?_, names_acceptedFields_nodup, ?_, met⟩ fun field inFields inner found => ?_
  · rintro ⟨fieldName, inner⟩ membership
    obtain ⟨field, inFields, rfl, _⟩ := mem_acceptedFields.mp membership
    exact Definition.mem_fieldNames inFields
  · intro field inFields needed
    rw [isSome_lookup_acceptedFields fits (Definition.mem_fieldNames inFields)]
    exact (fits field inFields).given needed
  · obtain ⟨other, inFieldsToo, sameName, given, looked, passed⟩ :=
      mem_acceptedFields.mp (lookup_eq_some_mem found)
    obtain rfl := ModelName.field_eq_of_name inFieldsToo inFields sameName
    exact each _ (lookupText_eq_some_mem looked) passed

theorem conforms_of_finishDictionary {entries : List (Atom × Value)} {key : TextRule} {item : Form}
    (each : ∀ entry ∈ entries, ∀ {form result}, entry.2.check form = .ok result →
      Conforms form result)
    (accepted : (Value.mapping entries).checkSettled (.dictionary key item) = .ok result) :
    Conforms (.dictionary key item) result := by
  obtain ⟨passes, rfl⟩ := checkSettled_dictionary_eq_ok_iff.mp accepted
  refine .dictionary (List.forall_mem_map.mpr fun entry membership => ?_)
    (List.forall_mem_map.mpr fun entry membership => ?_)
  · exact TextRule.checkKey_eq_nil_iff.mp (passes entry membership).1
  · exact each entry membership (passes entry membership).2.check_eq

end

/-- What validation makes of a value by a form conforms to the form. -/
theorem Value.IsSound.conforms {value : Value} (sound : value.IsSound) {form : Form} {result : Value}
    (accepted : value.check form = .ok result) : Conforms form result := by
  induction sound generalizing form result with
  | atom a =>
      refine conforms_of_settled (fun inner accepted => ?_) accepted
      cases inner with
      | anyJson => exact conforms_of_anyJson accepted
      | _ => exact conforms_of_checkWhole (.atom a) (by simp) accepted
  | @list items each inductionHypothesis =>
      refine conforms_of_settled (fun inner accepted => ?_) accepted
      cases inner with
      | list item minLength unique => exact conforms_of_finishList inductionHypothesis accepted
      | tuple positions distinct => exact conforms_of_finishTuple inductionHypothesis accepted
      | anyJson => exact conforms_of_anyJson accepted
      | _ => exact conforms_of_checkWhole (.list each) (by simp) accepted
  | @tuple items each inductionHypothesis =>
      refine conforms_of_settled (fun inner accepted => ?_) accepted
      cases inner with
      | list item minLength unique => exact conforms_of_finishList inductionHypothesis accepted
      | tuple positions distinct => exact conforms_of_finishTuple inductionHypothesis accepted
      | anyJson => exact conforms_of_anyJson accepted
      | _ => exact conforms_of_checkWhole (.tuple each) (by simp) accepted
  | @mapping entries each inductionHypothesis =>
      refine conforms_of_settled (fun inner accepted => ?_) accepted
      cases inner with
      | model name => exact conforms_of_assemble inductionHypothesis accepted
      | dictionary key item => exact conforms_of_finishDictionary inductionHypothesis accepted
      | anyJson => exact conforms_of_anyJson accepted
      | _ => exact conforms_of_checkWhole (.mapping each) (by simp) accepted
  | record conforms =>
      refine conforms_of_settled (fun inner accepted => ?_) accepted
      cases inner with
      | anyJson => exact conforms_of_anyJson accepted
      | _ => exact conforms_of_checkWhole (.record conforms) (by simp) accepted

/-! ### Parts of validated values -/

namespace Conforms

variable {value inner : Value}

theorem eq_record {name : ModelName} (conforms : Conforms (.model name) value) :
    ∃ fields, value = .record name fields ∧ name.definition.Holds fields := by
  cases conforms with
  | model holds _ => exact ⟨_, rfl, holds⟩

/-- What a record holds under a key conforms to the form of the key. -/
theorem field {name : ModelName} (conforms : Conforms (.model name) value) {key : String}
    {form : Form} (declared : name.definition.formOf? (.text key) = some form)
    (given : value.get? key = some inner) : Conforms form inner := by
  cases conforms with
  | model _ each =>
      obtain ⟨field, inFields, same, rfl⟩ := ModelName.formOf?_eq_some declared
      exact each field inFields inner (Atom.text.inj same ▸ given)

theorem required {name : ModelName} (conforms : Conforms (.model name) value) {key : String}
    {field : Field} (declared : name.definition.field? key = some field)
    (needed : field.required = true) : ∃ inner, value.get? key = some inner := by
  obtain ⟨fields, rfl, holds⟩ := conforms.eq_record
  have named : field.name = key := by simpa using List.find?_some declared
  exact named ▸ Option.isSome_iff_exists.mp
    (holds.given field (List.mem_of_find?_eq_some declared) needed)

theorem eq_double {rule : NumberRule} (conforms : Conforms (.number rule) value)
    (fractional : rule.whole = false) : ∃ x, value = .double x := by
  cases conforms with
  | number accepted =>
      obtain ⟨x, _, rfl⟩ := NumberRule.check_fractional fractional accepted
      exact ⟨x, rfl⟩

theorem eq_pair (conforms : Conforms .offsetRange value) :
    ∃ a b : Double, value = .tuple [.double a, .double b] := by
  cases conforms with
  | @tuple _ _ items length each _ =>
      obtain ⟨first, second, rfl⟩ := List.length_eq_two.mp length
      obtain ⟨a, rfl⟩ := (each (.anyNumber, first) (by simp)).eq_double rfl
      obtain ⟨b, rfl⟩ := (each (.anyNumber, second) (by simp)).eq_double rfl
      exact ⟨a, b, rfl⟩

/-- What a union makes conforms to one of its branches. -/
theorem branch {kinds : List (Kind × Form)} (conforms : Conforms (.byKind kinds) value) :
    ∃ branch ∈ kinds, Conforms branch.2 value := by
  cases conforms with
  | choice entered inner =>
      obtain ⟨branch, membership, same⟩ := List.mem_map.mp (lookup_eq_some_mem entered)
      rw [Prod.mk.injEq] at same
      exact ⟨branch, membership, same.2 ▸ inner⟩

end Conforms

end AnimationGrammar
