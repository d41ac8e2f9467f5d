import AnimationGrammar.Proofs.Validation.Absence
import AnimationGrammar.Proofs.Validation.Blocks
import AnimationGrammar.Proofs.Validation.Conforming
import AnimationGrammar.Proofs.Validation.Distinct

/-!
Entries beside a bad one.

The items of a list are compared, and the list is measured, only when every item is in order.  So one bad
entry keeps the list itself from being looked at, and every entry reports what it would report alone.
Alone, an entry that is in order reports nothing: it cannot repeat another one, and the numbers in it
have been rounded, so that it can be written out for the comparison.
-/

namespace AnimationGrammar

open Outcome Value Form

/-! ### Numbers of accepted values -/

/-- A value as a program holds it: the keys of an object differ, and what has been validated before
conforms to its model. -/
inductive Value.IsProper : Value → Prop
  | atom (a) : IsProper (.atom a)
  | list {items} : (∀ item ∈ items, IsProper item) → IsProper (.list items)
  | tuple {items} : (∀ item ∈ items, IsProper item) → IsProper (.tuple items)
  | mapping {entries} : (entries.map Prod.fst).Nodup → (∀ entry ∈ entries, IsProper entry.2) →
      IsProper (.mapping entries)
  | record {name fields} : Conforms (.model name) (.record name fields) →
      IsProper (.record name fields)

theorem Value.IsJson.isProper {value : Value} (json : value.IsJson) : value.IsProper := by
  induction value, json using jsonInduction with
  | atom a json => exact .atom a
  | list items json inductionHypothesis => exact .list inductionHypothesis
  | mapping entries json inductionHypothesis => exact .mapping json.keysDiffer inductionHypothesis

theorem Form.RoundsNumbers.component {form inner : Form} (rounds : form.RoundsNumbers)
    (inside : inner ∈ form.components) : inner.RoundsNumbers :=
  fun leaf isLeaf => rounds leaf (leaves_component inside leaf isLeaf)

/-- Neither a number that is taken nor what it becomes is too long to be written. -/
theorem NumberRule.check_isLongNumber {rule : NumberRule} {n m : Numeral}
    (accepted : rule.check n = .ok m) :
    (Atom.number n).isLongNumber = false ∧ (Atom.number m).isLongNumber = false := by
  obtain ⟨x, rounded, place, rfl | ⟨value, rfl⟩⟩ := check_place accepted
  · exact ⟨isLongNumber_of_rounded rounded, rfl⟩
  · obtain ⟨y, roundedToo, _⟩ := Numeral.toDouble?_of_double place
    exact ⟨isLongNumber_of_rounded rounded, isLongNumber_of_rounded roundedToo⟩

theorem hasLongNumber_items {value : Value} {items : List Value}
    (itemsOf : value.items? = some items) (each : ∀ item ∈ items, item.hasLongNumber = false) :
    value.hasLongNumber = false := by
  have short := hasLongNumber_list each
  cases value with
  | list | tuple => cases itemsOf; exact short
  | _ => nomatch itemsOf

theorem hasLongNumber_record {model : ModelName} {fields : List (String × Value)}
    (each : ∀ member ∈ fields, member.2.hasLongNumber = false) :
    (Value.record model fields).hasLongNumber = false := by
  unfold hasLongNumber
  induction fields with
  | nil => rfl
  | cons member rest inductionHypothesis =>
      rw [List.forall_mem_cons] at each
      rw [anyLongField, each.1, inductionHypothesis each.2]
      rfl

theorem Conforms.hasLongNumber_eq_false {form : Form} {value : Value} (conforms : Conforms form value)
    (rounds : form.RoundsNumbers) : value.hasLongNumber = false := by
  induction conforms with
  | text | literal | flag => rfl
  | number accepted => exact (NumberRule.check_isLongNumber accepted).2
  | anyJson => exact absurd rfl rounds.ne_anyJson
  | @tuple positions distinct items length _ _ inductionHypothesis =>
      refine hasLongNumber_items rfl fun item membership => ?_
      rw [← List.map_snd_zip length.le, List.mem_map] at membership
      obtain ⟨part, paired, rfl⟩ := membership
      exact inductionHypothesis part paired (rounds.component (List.of_mem_zip paired).1)
  | list _ _ inductionHypothesis =>
      refine hasLongNumber_items rfl fun item membership => ?_
      exact inductionHypothesis item membership (rounds.component List.mem_cons_self)
  | dictionary keys _ inductionHypothesis =>
      refine hasLongNumber_mapping fun entry membership => ?_
      obtain ⟨name, isText, _⟩ := keys entry membership
      exact ⟨⟨name, by rw [isText, Atom.asText_text]⟩,
        inductionHypothesis entry membership (rounds.component List.mem_cons_self)⟩
  | choice entered _ inductionHypothesis => exact inductionHypothesis (rounds.branch entered)
  | @model name fields holds _ inductionHypothesis =>
      refine hasLongNumber_record ?_
      rintro ⟨key, inner⟩ membership
      obtain ⟨field, inFields, rfl⟩ := List.mem_map.mp (holds.declared _ membership)
      exact inductionHypothesis field inFields inner
        ((lookup_eq_some_iff_mem holds.namesDiffer).mpr membership) (rounds.field inFields)

section
variable {value result : Value} {form : Form}

theorem items_pass {items : List Value} (itemsOf : value.items? = some items)
    (rounds : form.RoundsNumbers) (accepted : value.checkSettled form = .ok result) :
    ∀ item ∈ items, ∃ inner : Form, inner.RoundsNumbers ∧ item.Passes inner := by
  cases form with
  | list item minLength unique =>
      rw [checkSettled_list, itemsOf] at accepted
      obtain ⟨passes, _⟩ := finishList_passes_iff.mp ⟨result, accepted⟩
      exact fun part membership =>
        ⟨item, rounds.component List.mem_cons_self, passes part membership⟩
  | tuple positions distinct =>
      rw [checkSettled_tuple, itemsOf] at accepted
      obtain ⟨fits, values, same, _⟩ := finishTuple_passes_iff.mp ⟨result, accepted⟩
      obtain ⟨_, passes⟩ := checkPositions_passes_iff.mp ⟨values, same⟩
      intro item membership
      rw [← List.map_snd_zip fits, List.mem_map] at membership
      obtain ⟨part, paired, rfl⟩ := membership
      exact ⟨part.1, rounds.component (List.of_mem_zip paired).1, passes part paired⟩
  | anyJson => exact absurd rfl rounds.ne_anyJson
  | _ =>
      cases value with
      | list | tuple => exact absurd accepted refuse_ne_ok
      | _ => nomatch itemsOf

theorem entries_pass {entries : List (Atom × Value)} (keysDiffer : (entries.map Prod.fst).Nodup)
    (rounds : form.RoundsNumbers) (accepted : (Value.mapping entries).checkSettled form = .ok result) :
    ∀ entry ∈ entries, (∃ name, entry.1.asText = .text name) ∧
      ∃ inner : Form, inner.RoundsNumbers ∧ entry.2.Passes inner := by
  cases form with
  | model name =>
      obtain ⟨fits, known, _⟩ := assemble_entryOutcomes_eq_ok_iff.mp accepted
      rintro ⟨key, inner⟩ membership
      obtain ⟨fieldName, declared, isText⟩ := known rounds.closed _ membership
      obtain ⟨field, inFields, rfl⟩ := List.mem_map.mp declared
      obtain rfl : key = .text field.name := isText
      refine ⟨⟨field.name, rfl⟩, field.form, rounds.field inFields, ?_⟩
      exact (fits field inFields).passes inner ((lookupText_eq_some_iff keysDiffer).mpr membership)
  | dictionary key item =>
      obtain ⟨each, _⟩ := checkSettled_dictionary_eq_ok_iff.mp accepted
      intro entry membership
      obtain ⟨isKey, passes⟩ := each entry membership
      obtain ⟨name, isText, _⟩ := TextRule.checkKey_eq_nil_iff.mp isKey
      exact ⟨⟨name, isText⟩, item, rounds.component List.mem_cons_self, passes⟩
  | anyJson => exact absurd rfl rounds.ne_anyJson
  | _ => exact absurd accepted refuse_ne_ok

theorem atom_hasLongNumber {a : Atom} (rounds : form.RoundsNumbers)
    (accepted : (Value.atom a).checkSettled form = .ok result) :
    (Value.atom a).hasLongNumber = false := by
  cases a with
  | number n =>
      have notFree := rounds.ne_anyJson
      have accepted : (Value.number n).checkWhole form = .ok result := by
        cases form with
        | anyJson => exact absurd rfl notFree
        | _ => exact accepted
      cases checkWhole_eq_ok_iff.mp accepted with
      | text passed => cases passed
      | number taken => exact (NumberRule.check_isLongNumber taken).1
      | one one => exact flag_isLongNumber one
      | anyJson => exact absurd rfl notFree
  | _ => rfl

theorem Form.Settles.roundsNumbers {labels : List String} {inner : Form}
    (settles : form.Settles value labels inner) (rounds : form.RoundsNumbers) :
    inner.RoundsNumbers := by
  induction settles with
  | whole => exact rounds
  | branch _ entered _ inductionHypothesis => exact inductionHypothesis (rounds.branch entered)

end

theorem Value.Passes.settled {value : Value} {form : Form} (passes : value.Passes form)
    (rounds : form.RoundsNumbers) :
    ∃ inner : Form, inner.RoundsNumbers ∧ ∃ result, value.checkSettled inner = .ok result := by
  obtain ⟨result, accepted⟩ := passes
  rcases settles_or_strays value form with ⟨labels, inner, settles, _⟩ | ⟨labels, cause, strays, _⟩
  · rw [check_of_settles settles, underLabels_eq_ok_iff] at accepted
    exact ⟨inner, settles.roundsNumbers rounds, result, accepted⟩
  · rw [check_of_strays strays, underLabels_eq_ok_iff] at accepted
    exact absurd accepted refuse_ne_ok

theorem Value.IsProper.hasLongNumber_eq_false {value : Value} (proper : value.IsProper) {form : Form}
    (rounds : form.RoundsNumbers) (passes : value.Passes form) : value.hasLongNumber = false := by
  induction proper generalizing form with
  | atom a =>
      obtain ⟨inner, rounds, result, accepted⟩ := passes.settled rounds
      exact atom_hasLongNumber rounds accepted
  | list _ inductionHypothesis | tuple _ inductionHypothesis =>
      obtain ⟨inner, rounds, result, accepted⟩ := passes.settled rounds
      refine hasLongNumber_items rfl fun item membership => ?_
      obtain ⟨own, ownRounds, itemPasses⟩ := items_pass rfl rounds accepted item membership
      exact inductionHypothesis item membership ownRounds itemPasses
  | mapping keysDiffer _ inductionHypothesis =>
      obtain ⟨inner, rounds, result, accepted⟩ := passes.settled rounds
      refine hasLongNumber_mapping fun entry membership => ?_
      obtain ⟨isText, own, ownRounds, entryPasses⟩ :=
        entries_pass keysDiffer rounds accepted entry membership
      exact ⟨isText, inductionHypothesis entry membership ownRounds entryPasses⟩
  | @record name fields conforms =>
      obtain ⟨inner, rounds, result, accepted⟩ := passes.settled rounds
      cases inner with
      | model other =>
          simp only [checkSettled, checkWhole_eq_ok_iff] at accepted
          cases accepted
          exact conforms.hasLongNumber_eq_false rounds
      | anyJson => exact absurd rfl rounds.ne_anyJson
      | _ => exact absurd accepted refuse_ne_ok

/-! ### Faults of a list -/

theorem collect_atPositions_eq_error {outcomes : List Outcome} {faults : List Fault}
    (refused : collect (atPositions 0 outcomes) = .error faults) :
    faults = outcomes.zipIdx.flatMap fun part => part.1.faults.map (Fault.under (.index part.2)) := by
  rw [collect_eq_error refused, atPositions_eq, List.flatMap_map]
  simp only [faults_under]

/-- A list with an item that is refused has the faults of its items, and none of its own. -/
theorem faults_finishList_of_refused {items : List Value} {form : Form}
    (refused : ∃ item ∈ items, ¬ item.Passes form) (minLength : Option Nat) (unique : Bool) :
    (finishList items minLength unique (items.map fun item => item.check form)).faults =
      items.zipIdx.flatMap fun part =>
        (part.1.check form).faults.map (Fault.under (.index part.2)) := by
  unfold finishList
  split
  next faults collected =>
      rw [Outcome.faults, collect_atPositions_eq_error collected, List.zipIdx_map, List.flatMap_map]
      rfl
  next values collected =>
      obtain ⟨item, membership, fails⟩ := refused
      have same := collect_atPositions_eq_ok_iff.mp collected
      have passes := exists_eq_map_ok_iff.mp ⟨values, same⟩
      exact absurd (passes _ (List.mem_map_of_mem membership)) fails

theorem issue_under_index {items : List Value} {item : Value} {position : Nat}
    (found : items[position]? = some item) (fault : Fault) :
    (fault.under (.index position)).issue (.list items) =
      (fault.issue item).below [.number (.integer position)] := by
  have steps : (fault.under (.index position)).items =
      .number (.integer position) :: fault.items := rfl
  have noTag : (Value.list items).isTag (.number (.integer position)) = false := rfl
  unfold Fault.issue Issue.below
  rw [steps, retrace, noTag, enter?_index, found]
  rfl

/-! ### Entries -/

/-- What an entry reports from its position in the list under a key. -/
def entryReport (key : Atom) (position : Nat) (entry : Value) : List Issue :=
  (entry.check (.model .animationObject)).faults.map fun fault =>
    (fault.issue entry).below [key, .number (.integer position)]

/-- The issue as if its entry stood elsewhere in the list. -/
def Issue.atEntry (position : Nat) (issue : Issue) : Issue :=
  { issue with path := issue.path.set 1 (.number (.integer position)) }

theorem entryReport_path {key : Atom} {position : Nat} {entry : Value} {issue : Issue}
    (reported : issue ∈ entryReport key position entry) :
    ∃ rest, issue.path = key :: .number (.integer position) :: rest := by
  obtain ⟨fault, _, rfl⟩ := List.mem_map.mp reported
  exact ⟨_, rfl⟩

theorem entryReport_atEntry (key : Atom) (first position : Nat) (entry : Value) :
    (entryReport key first entry).map (Issue.atEntry position) = entryReport key position entry := by
  unfold entryReport
  rw [List.map_map]
  rfl

variable {key : Atom}

theorem valueIssues_of_refused {items : List Value}
    (refused : ∃ item ∈ items, ¬ item.Passes (.model .animationObject)) :
    valueIssues key (.list items) =
      items.zipIdx.flatMap fun part => entryReport key part.2 part.1 := by
  have settles : Form.animationObjects.Settles (.list items) [] .animationObjects := .whole rfl
  have faults : ((Value.list items).check .animationObjects).faults =
      items.zipIdx.flatMap fun part => (part.1.check (.model .animationObject)).faults.map
        (Fault.under (.index part.2)) := by
    rw [check_of_settles settles, underLabels]
    exact faults_finishList_of_refused refused (some 1) true
  have form : entryForm (.list items) = .animationObjects := rfl
  rw [valueIssues, form, issuesAt, faults, List.map_flatMap]
  apply List.flatMap_congr
  rintro ⟨item, position⟩ membership
  have found : items[position]? = some item := List.mk_mem_zipIdx_iff_getElem?.mp membership
  rw [List.map_map, entryReport]
  apply List.map_congr_left
  intro fault _
  rw [Function.comp_apply, issue_under_index found]
  rfl

theorem valueIssues_single {item : Value} (proper : item.IsProper) :
    valueIssues key (.list [item]) = entryReport key 0 item := by
  by_cases passes : item.Passes (.model .animationObject)
  · have rounds : (Form.model .animationObject).RoundsNumbers := by decide
    have short := proper.hasLongNumber_eq_false rounds passes
    have unique : repetition? [item] = none := by
      rw [repetition?_eq_none_iff, List.forall_mem_singleton]
      exact ⟨rfl, short⟩
    obtain ⟨result, accepted⟩ : (Value.list [item]).Passes .animationObjects := by
      rw [passes_whole_iff rfl]
      refine finishList_passes_iff.mpr ⟨?_, le_rfl, fun _ => unique⟩
      rwa [List.forall_mem_singleton]
    have form : entryForm (.list [item]) = .animationObjects := rfl
    obtain ⟨own, inOrder⟩ := passes
    rw [valueIssues, form, accepted, entryReport, inOrder]
    rfl
  · rw [valueIssues_of_refused ⟨item, List.mem_singleton_self item, passes⟩, List.zipIdx_singleton,
      List.flatMap_singleton]

/-- When some entry of a list is refused, every entry reports exactly what it reports alone, from its own
position, and nothing is reported of the list itself. -/
theorem entries_report_alone (key : Atom) {items : List Value}
    (proper : ∀ item ∈ items, item.IsProper)
    (refused : ∃ item ∈ items, ¬ item.Passes (.model .animationObject)) :
    entryIssues key (.list items) = keyIssues key ++ items.zipIdx.flatMap (fun part =>
      (valueIssues key (.list [part.1])).map (Issue.atEntry part.2)) ∧
    (∀ issue ∈ valueIssues key (.list items), ∃ position < items.length, ∃ rest,
      issue.path = key :: .number (.integer position) :: rest) ∧
    (∀ item ∈ items, ∀ issue ∈ valueIssues key (.list [item]), ∃ rest,
      issue.path = key :: .number (.integer 0) :: rest) ∧
    (key ≠ .text tokenImagesKey → ∀ value,
      validate (.mapping [(key, value)]) = entryIssues key value) := by
  refine ⟨?_, ?_, ?_, ?_⟩
  · rw [entryIssues, valueIssues_of_refused refused, List.append_cancel_left_eq]
    apply List.flatMap_congr
    rintro ⟨item, position⟩ membership
    have inItems : item ∈ items := List.fst_mem_of_mem_zipIdx membership
    rw [valueIssues_single (proper item inItems), entryReport_atEntry]
  · intro issue reported
    rw [valueIssues_of_refused refused, List.mem_flatMap] at reported
    obtain ⟨⟨item, position⟩, membership, inReport⟩ := reported
    have found : items[position]? = some item := List.mk_mem_zipIdx_iff_getElem?.mp membership
    obtain ⟨below, _⟩ := List.getElem?_eq_some_iff.mp found
    exact ⟨position, below, entryReport_path inReport⟩
  · intro item membership issue reported
    rw [valueIssues_single (proper item membership)] at reported
    exact entryReport_path reported
  · intro apart value
    rw [validate, List.flatMap_singleton, blockIssues, if_neg apart]

/-- Between two bad entries, a good one reports nothing. -/
theorem entries_report_alone_goodBetween :
    let good := Value.mapping [(.text "default", .boolean true)]
    let items := [Value.integer 5, good, .mapping [(.text "presets", .integer 1)]]
    (entryIssues (.text "Foo") (.list items)).map Issue.path =
      [[.text "Foo"], [.text "Foo", .number (.integer 0)],
        [.text "Foo", .number (.integer 2), .text "presets"]] := by
  intro good items
  have json : (Value.list items).IsJson := by decide
  have refused : ¬ (Value.integer 5).Passes (.model .animationObject) := by
    rintro ⟨result, accepted⟩
    exact absurd accepted refuse_ne_ok
  rw [(entries_report_alone (.text "Foo") (fun item membership => (json.item membership).isProper)
    ⟨_, List.mem_cons_self, refused⟩).1]
  decide +kernel

end AnimationGrammar
