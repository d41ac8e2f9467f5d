import AnimationGrammar.Proofs.Validation.Siblings

/-!
What becomes of a value and of its parts.

`Becomes` follows an accepted value down to its parts and says of each what validation makes of it.  With
it, facts on validated values that depend on what was given are proved by going through the cases.
-/

namespace AnimationGrammar

open Outcome Value

/-- What validation makes of values.  Of those without parts only the result is described. -/
inductive Becomes : Form → Value → Value → Prop
  | atomic {form value result} : form.isAtomic = true → Conforms form result →
      Becomes form value result
  | anyJson {value result} : value.checkJson = .ok result → Becomes .anyJson value result
  | list {item minLength unique value items} : value.items? = some items →
      minLength.getD 0 ≤ items.length → (unique = true → repetition? items = none) →
      (∀ part ∈ items, Becomes item part (part.checked item)) →
      Becomes (.list item minLength unique) value (.list (items.map fun part => part.checked item))
  | tuple {positions distinct value items} : value.items? = some items →
      items.length = positions.length →
      (distinct = true → startsWithEqualNumbers
        ((items.zip positions).map fun part => part.1.checked part.2) = false) →
      (∀ part ∈ items.zip positions, Becomes part.2 part.1 (part.1.checked part.2)) →
      Becomes (.tuple positions distinct) value
        (.tuple ((items.zip positions).map fun part => part.1.checked part.2))
  | dictionary {key item entries} :
      (∀ entry ∈ entries, ∃ content, entry.1.asText = .text content ∧ key.Accepts content) →
      (∀ entry ∈ entries, Becomes item entry.2 (entry.2.checked item)) →
      Becomes (.dictionary key item) (.mapping entries)
        (.mapping (entries.map fun entry => (entry.1.asText, entry.2.checked item)))
  | model {name entries} :
      Conforms (.model name) (.record name (acceptedFields entries name.definition.fields)) →
      (∀ field ∈ name.definition.fields, ∀ given, lookupText field.name entries = some given →
        Becomes field.form given (given.checked field.form)) →
      Becomes (.model name) (.mapping entries)
        (.record name (acceptedFields entries name.definition.fields))
  | record {name fields} : Conforms (.model name) (.record name fields) →
      Becomes (.model name) (.record name fields) (.record name fields)
  | choice {dispatch branches label form value result} : dispatch.label? value = some label →
      branches.lookup label = some form → Becomes form value result →
      Becomes (.choice dispatch branches) value result

/-- What becomes of the items of a tuple stands at their positions. -/
theorem zip_checked {items : List Value} {positions : List Form}
    (length : items.length = positions.length) :
    ((items.zip positions).map fun part => part.1.checked part.2).zip positions =
      (items.zip positions).map fun part => (part.1.checked part.2, part.2) := by
  nth_rewrite 2 [← List.map_snd_zip length.ge]
  rw [List.zip_map']

theorem hasLongNumber_of_items {value item : Value} {items : List Value}
    (itemsOf : value.items? = some items) (membership : item ∈ items)
    (short : value.hasLongNumber = false) : item.hasLongNumber = false := by
  have all : anyLongNumber items = false := by
    cases value with
    | list | tuple => cases itemsOf; exact short
    | _ => nomatch itemsOf
  rw [anyLongNumber_eq, List.any_eq_false] at all
  simpa using all _ (List.mem_map_of_mem membership)

theorem hasLongNumber_of_entry {entries : List (Atom × Value)} {entry : Atom × Value}
    (membership : entry ∈ entries) (short : (Value.mapping entries).hasLongNumber = false) :
    entry.2.hasLongNumber = false := by
  rw [hasLongNumber, anyLongEntry_eq, List.any_eq_false] at short
  have both := short entry membership
  rw [Bool.or_eq_true, not_or] at both
  simpa using both.2

theorem hasLongNumber_withTextKeys {value : Value} (free : value.jsonFaults = [])
    (short : value.hasLongNumber = false) : value.withTextKeys.hasLongNumber = false := by
  induction value using layerInduction with
  | atom | tuple | record => exact short
  | list items inductionHypothesis =>
      rw [withTextKeys, itemsWithTextKeys_eq]
      refine hasLongNumber_list (List.forall_mem_map.mpr fun item membership => ?_)
      exact inductionHypothesis item membership (jsonFaults_list_iff.mp free item membership)
        (hasLongNumber_of_items rfl membership short)
  | mapping entries inductionHypothesis =>
      rw [withTextKeys, entriesWithTextKeys_eq]
      refine hasLongNumber_mapping (List.forall_mem_map.mpr fun entry membership => ?_)
      obtain ⟨isText, freeToo⟩ := jsonFaults_mapping_iff.mp free entry membership
      exact ⟨by rwa [Atom.asText_asText], inductionHypothesis entry membership freeToo
        (hasLongNumber_of_entry membership short)⟩

namespace Becomes

variable {form : Form} {value result : Value}

theorem conforms (becomes : Becomes form value result) : Conforms form result := by
  induction becomes with
  | atomic _ conforms => exact conforms
  | anyJson accepted => exact .anyJson (checkJson_again accepted)
  | list _ enough _ _ inductionHypothesis =>
      exact .list (by rwa [List.length_map]) (List.forall_mem_map.mpr inductionHypothesis)
  | @tuple positions distinct _ items _ length differ _ inductionHypothesis =>
      refine .tuple (by simp [length]) ?_ differ
      rw [← List.zip_swap, zip_checked length, List.map_map, List.forall_mem_map]
      exact inductionHypothesis
  | dictionary keys _ inductionHypothesis =>
      exact .dictionary (List.forall_mem_map.mpr keys) (List.forall_mem_map.mpr inductionHypothesis)
  | model conforms _ _ => exact conforms
  | record conforms => exact conforms
  | choice _ entered _ inductionHypothesis => exact .choice entered inductionHypothesis

theorem hasLongNumber_eq_false (becomes : Becomes form value result)
    (short : value.hasLongNumber = false) : result.hasLongNumber = false := by
  induction becomes with
  | atomic atomic conforms =>
      cases conforms with
      | text | literal | flag => rfl
      | number accepted => exact (NumberRule.check_isLongNumber accepted).2
      | _ => simp [Form.isAtomic] at atomic
  | anyJson accepted =>
      obtain ⟨free, rfl⟩ := checkJson_eq_ok_iff.mp accepted
      exact hasLongNumber_withTextKeys free short
  | record => exact short
  | list itemsOf _ _ _ inductionHypothesis =>
      refine hasLongNumber_list (List.forall_mem_map.mpr fun part membership => ?_)
      exact inductionHypothesis part membership (hasLongNumber_of_items itemsOf membership short)
  | tuple itemsOf _ _ _ inductionHypothesis =>
      refine hasLongNumber_items rfl (List.forall_mem_map.mpr fun part membership => ?_)
      apply inductionHypothesis part membership
      exact hasLongNumber_of_items itemsOf (List.of_mem_zip membership).1 short
  | dictionary keys _ inductionHypothesis =>
      refine hasLongNumber_mapping (List.forall_mem_map.mpr fun entry membership => ⟨?_, ?_⟩)
      · obtain ⟨name, isText, _⟩ := keys entry membership
        exact ⟨name, by rwa [Atom.asText_asText]⟩
      · exact inductionHypothesis entry membership (hasLongNumber_of_entry membership short)
  | model _ _ inductionHypothesis =>
      apply hasLongNumber_record
      rintro ⟨key, inner⟩ membership
      obtain ⟨field, inFields, rfl, given, looked, accepted⟩ := mem_acceptedFields.mp membership
      rw [← (check_eq_ok_iff.mp accepted).2]
      apply inductionHypothesis field inFields given looked
      exact hasLongNumber_of_entry (lookupText_eq_some_mem looked) short
  | choice _ _ _ inductionHypothesis => exact inductionHypothesis short

end Becomes

/-! ### Accepted values -/

section
variable {value result : Value} {form : Form}

theorem Form.Settles.becomes {labels : List String} {inner : Form}
    (settles : form.Settles value labels inner) (becomes : Becomes inner value result) :
    Becomes form value result := by
  induction settles with
  | whole => exact becomes
  | branch found entered _ inductionHypothesis =>
      exact .choice found entered (inductionHypothesis becomes)

variable (sound : value.IsSound)
  (ofItems : ∀ items, value.items? = some items → ∀ item ∈ items, ∀ {form result},
    item.check form = .ok result → Becomes form item result)
  (ofEntries : ∀ entries, value = .mapping entries → ∀ entry ∈ entries, ∀ {form result},
    entry.2.check form = .ok result → Becomes form entry.2 result)

include ofItems in
theorem becomes_of_list {item : Form} {minLength : Option Nat} {unique : Bool}
    (accepted : value.checkSettled (.list item minLength unique) = .ok result) :
    Becomes (.list item minLength unique) value result := by
  rw [checkSettled_list] at accepted
  split at accepted
  next items itemsOf =>
      obtain ⟨passes, enough, differ⟩ := finishList_passes_iff.mp ⟨result, accepted⟩
      rw [finishList_eq_ok accepted, List.map_map]
      exact .list itemsOf enough differ fun part membership =>
        ofItems items itemsOf part membership (passes part membership).check_eq
  next => exact absurd accepted refuse_ne_ok

include ofItems in
theorem becomes_of_tuple {positions : List Form} {distinct : Bool}
    (accepted : value.checkSettled (.tuple positions distinct) = .ok result) :
    Becomes (.tuple positions distinct) value result := by
  rw [checkSettled_tuple] at accepted
  split at accepted
  next items itemsOf =>
      obtain ⟨fits, values, same, differ⟩ := finishTuple_passes_iff.mp ⟨result, accepted⟩
      obtain ⟨enough, passes⟩ := checkPositions_passes_iff.mp ⟨values, same⟩
      have length : items.length = positions.length := le_antisymm fits enough
      have outcomes : checkPositions items positions =
          (items.zip positions).map fun part => part.1.check part.2 := by
        rw [checkPositions_eq, length, List.drop_length, List.map_nil, List.append_nil]
      have results : ((items.zip positions).map fun part => part.1.checked part.2) = values := by
        rw [← map_value_ok values, ← same, outcomes, List.map_map]
        rfl
      rw [finishTuple_eq_ok accepted, same, map_value_ok, ← results]
      refine .tuple itemsOf length (results ▸ differ) fun part membership => ?_
      apply ofItems items itemsOf part.1 (List.of_mem_zip membership).1
      apply Passes.check_eq
      apply passes part.swap
      rw [← List.zip_swap]
      exact List.mem_map_of_mem membership
  next => exact absurd accepted refuse_ne_ok

include sound ofEntries in
theorem becomes_of_model {name : ModelName}
    (accepted : value.checkSettled (.model name) = .ok result) :
    Becomes (.model name) value result := by
  have conforms : Conforms (.model name) result := by
    apply sound.conforms
    rwa [check_whole rfl]
  cases value with
  | mapping entries =>
      obtain ⟨fits, _, _, rfl⟩ := assemble_entryOutcomes_eq_ok_iff.mp accepted
      refine .model conforms fun field inFields given looked => ?_
      apply ofEntries entries rfl _ (lookupText_eq_some_mem looked)
      exact ((fits field inFields).passes given looked).check_eq
  | record model fields =>
      simp only [checkSettled, checkWhole_eq_ok_iff] at accepted
      cases accepted
      exact .record conforms
  | _ => exact absurd accepted refuse_ne_ok

include sound ofItems ofEntries in
theorem becomes_of_checkSettled (whole : form.isChoice = false)
    (accepted : value.checkSettled form = .ok result) : Becomes form value result := by
  have atomic (isAtomic : form.isAtomic = true) : Becomes form value result := by
    apply Becomes.atomic isAtomic
    apply sound.conforms
    rwa [check_whole whole]
  cases form with
  | list item minLength unique => exact becomes_of_list ofItems accepted
  | tuple positions distinct => exact becomes_of_tuple ofItems accepted
  | model name => exact becomes_of_model sound ofEntries accepted
  | dictionary key item =>
      cases value with
      | mapping entries =>
          obtain ⟨each, rfl⟩ := checkSettled_dictionary_eq_ok_iff.mp accepted
          refine .dictionary (fun entry membership =>
            TextRule.checkKey_eq_nil_iff.mp (each entry membership).1) fun entry membership => ?_
          exact ofEntries entries rfl entry membership (each entry membership).2.check_eq
      | _ => exact absurd accepted refuse_ne_ok
  | anyJson =>
      rw [checkSettled_anyJson] at accepted
      exact .anyJson accepted
  | choice dispatch branches => simp [Form.isChoice] at whole
  | _ => exact atomic rfl

include sound ofItems ofEntries in
theorem becomes_of_check (accepted : value.check form = .ok result) : Becomes form value result := by
  rcases Form.settles_or_strays value form with
    ⟨labels, inner, settles, _⟩ | ⟨labels, cause, strays, _⟩
  · rw [check_of_settles settles, underLabels_eq_ok_iff] at accepted
    exact settles.becomes (becomes_of_checkSettled sound ofItems ofEntries settles.isWhole accepted)
  · rw [check_of_strays strays, underLabels_eq_ok_iff] at accepted
    exact absurd accepted refuse_ne_ok

end

theorem Value.IsSound.becomes {value result : Value} (sound : value.IsSound) {form : Form}
    (accepted : value.check form = .ok result) : Becomes form value result := by
  induction sound generalizing form result with
  | atom a => exact becomes_of_check (.atom a) (by simp [items?]) (by simp) accepted
  | list each inductionHypothesis =>
      refine becomes_of_check (.list each) ?_ (by simp) accepted
      rintro _ ⟨⟩ item membership form result itemAccepted
      exact inductionHypothesis item membership itemAccepted
  | tuple each inductionHypothesis =>
      refine becomes_of_check (.tuple each) ?_ (by simp) accepted
      rintro _ ⟨⟩ item membership form result itemAccepted
      exact inductionHypothesis item membership itemAccepted
  | mapping each inductionHypothesis =>
      refine becomes_of_check (.mapping each) (by simp [items?]) ?_ accepted
      rintro _ ⟨⟩ entry membership form result entryAccepted
      exact inductionHypothesis entry membership entryAccepted
  | record conforms =>
      exact becomes_of_check (.record conforms) (by simp [items?]) (by simp) accepted

end AnimationGrammar
