import AnimationGrammar.Proofs.Grammar.Labels
import AnimationGrammar.Proofs.Validation.Becoming
import AnimationGrammar.Proofs.Validation.Numbers
import AnimationGrammar.Proofs.Validation.Uniqueness

/-!
Validating what has been validated.

A validated value bears the labels by which it was validated, its texts and numbers still follow their
rules, and records are taken as they are.  So it is validated to itself, with one exception: the items of
a list were compared as they were given, and the second time it is what has become of them that is
compared.  Items that differed may have been rounded to the same number.
-/

namespace AnimationGrammar

open Outcome Value

/-! ### Lists that are looked at again -/

/-- Which lists with items that have to differ are come to when a validated value is validated again.
Validation goes into lists, tuples and dictionaries, but not into records. -/
inductive LooksAgain : Form → Value → List Value → Prop
  | here {item minLength items} : LooksAgain (.list item minLength true) (.list items) items
  | item {item minLength unique items part again} : part ∈ items → LooksAgain item part again →
      LooksAgain (.list item minLength unique) (.list items) again
  | position {positions distinct items part again} : part ∈ items.zip positions →
      LooksAgain part.2 part.1 again → LooksAgain (.tuple positions distinct) (.tuple items) again
  | entry {key item entries entry again} : entry ∈ entries → LooksAgain item entry.2 again →
      LooksAgain (.dictionary key item) (.mapping entries) again
  | branch {dispatch branches label form value again} : dispatch.label? value = some label →
      branches.lookup label = some form → LooksAgain form value again →
      LooksAgain (.choice dispatch branches) value again

/-- Whether two items have become the same in one of these lists. -/
def RepeatsAgain (form : Form) (value : Value) : Prop :=
  ∃ items, LooksAgain form value items ∧ hasDuplicates items = true

section
variable {item : Form} {items : List Value}

theorem repeatsAgain_list_iff {minLength : Option Nat} {unique : Bool} :
    RepeatsAgain (.list item minLength unique) (.list items) ↔
      unique = true ∧ hasDuplicates items = true ∨ ∃ part ∈ items, RepeatsAgain item part := by
  constructor
  · rintro ⟨again, looks, same⟩
    cases looks with
    | here => exact .inl ⟨rfl, same⟩
    | item membership looks => exact .inr ⟨_, membership, again, looks, same⟩
  · rintro (⟨rfl, same⟩ | ⟨part, membership, again, looks, same⟩)
    · exact ⟨items, .here, same⟩
    · exact ⟨again, .item membership looks, same⟩

theorem repeatsAgain_tuple_iff {positions : List Form} {distinct : Bool} :
    RepeatsAgain (.tuple positions distinct) (.tuple items) ↔
      ∃ part ∈ items.zip positions, RepeatsAgain part.2 part.1 := by
  constructor
  · rintro ⟨again, looks, same⟩
    cases looks with
    | position membership looks => exact ⟨_, membership, again, looks, same⟩
  · rintro ⟨part, membership, again, looks, same⟩
    exact ⟨again, .position membership looks, same⟩

theorem repeatsAgain_dictionary_iff {key : TextRule} {entries : List (Atom × Value)} :
    RepeatsAgain (.dictionary key item) (.mapping entries) ↔
      ∃ entry ∈ entries, RepeatsAgain item entry.2 := by
  constructor
  · rintro ⟨again, looks, same⟩
    cases looks with
    | entry membership looks => exact ⟨_, membership, again, looks, same⟩
  · rintro ⟨entry, membership, again, looks, same⟩
    exact ⟨again, .entry membership looks, same⟩

end

theorem repeatsAgain_choice_iff {dispatch : Dispatch} {branches : List (String × Form)}
    {label : String} {form : Form} {value : Value} (found : dispatch.label? value = some label)
    (entered : branches.lookup label = some form) :
    RepeatsAgain (.choice dispatch branches) value ↔ RepeatsAgain form value := by
  constructor
  · rintro ⟨again, looks, same⟩
    cases looks with
    | branch bears otherEntered looks =>
        rw [found, Option.some.injEq] at bears
        rw [← bears, entered, Option.some.injEq] at otherEntered
        exact ⟨again, otherEntered ▸ looks, same⟩
  · rintro ⟨again, looks, same⟩
    exact ⟨again, .branch found entered looks, same⟩

/-! ### Labels of validated values -/

section
variable {form : Form} {value : Value}

theorem Conforms.kind?_eq (conforms : Conforms form value) (regular : form.isRegular = true)
    {kind : Kind} (kinds : form.kindOf? = some kind) : value.kind? = some kind := by
  cases conforms with
  | anyJson => simp [Form.kindOf?] at kinds
  | @choice dispatch branches label inner _ entered conforms =>
      obtain ⟨rfl, rfl⟩ := Form.eq_length_of_kindOf? kinds
      cases (Form.regularChoice_iff.mp regular).suited (lookup_eq_some_mem entered) with
      | length =>
          cases conforms
          rfl
  | _ => exact kinds

theorem Conforms.get?_type {label : String} {name : ModelName}
    (conforms : Conforms (.model name) value) (filter : (label, name) ∈ filterModels) :
    value.get? "type" = some (.text label) := by
  have inFields := filterType_field filter
  cases conforms with
  | @model _ fields holds each =>
      obtain ⟨inner, found⟩ := Option.isSome_iff_exists.mp (holds.given _ inFields rfl)
      have literal : Conforms (.literal [label]) inner := each _ inFields inner found
      cases literal with
      | literal chosen => exact List.mem_singleton.mp chosen ▸ found

theorem Conforms.label?_eq (conforms : Conforms form value) (regular : form.isRegular = true)
    {dispatch : Dispatch} {label : String} (suits : dispatch.Suits label form) :
    dispatch.label? value = some label := by
  cases suits with
  | kind kinds => rw [Dispatch.label?, conforms.kind?_eq regular kinds, Option.map_some]
  | predicate =>
      obtain ⟨fields, rfl, _⟩ := conforms.eq_record
      rfl
  | rollOption =>
      cases conforms
      rfl
  | filter filter => rw [Dispatch.label?, conforms.get?_type filter]
  | length =>
      cases conforms with
      | tuple length _ _ => rw [Dispatch.label?, items?, Option.map_some, length]

end

/-! ### Numbers that have been rounded -/

namespace NumberRule

variable {rule : NumberRule} {n m : Numeral}

/-- A number that has been taken is taken again, and stays as it is. -/
theorem check_stays (regular : (Form.number rule).isRegular = true)
    (accepted : rule.check n = .ok m) : rule.check m = .ok m := by
  cases whole : rule.whole with
  | false =>
      obtain ⟨x, rounded, rfl⟩ := check_fractional whole accepted
      rw [← check_rounded rounded, accepted]
  | true =>
      obtain ⟨x, value, rounded, -, -, exact, rfl⟩ := (check_integer_eq_ok_iff whole).mp accepted
      have equal : (Numeral.double x).isEqual (.integer value) = true :=
        Numeral.isEqual_integer_iff.mpr exact
      have place := Numeral.place_of_isEqual equal
      obtain ⟨ordered, orderedToo⟩ := Numeral.isOrdered_of_isEqual equal
      obtain ⟨again, takenAgain⟩ := number_validation_congr ordered orderedToo equal regular
        ⟨_, check_rounded rounded ▸ accepted⟩
      obtain ⟨y, other, roundedToo, -, -, exactToo, rfl⟩ := (check_integer_eq_ok_iff whole).mp takenAgain
      obtain ⟨z, roundedZ, samePlace⟩ := Numeral.toDouble?_of_double place.symm
      rw [roundedToo, Option.some.injEq] at roundedZ
      have otherPlace : (Numeral.double y).place = (Numeral.integer other).place :=
        Numeral.place_of_toInt? exactToo
      rw [takenAgain, Numeral.integer_place_inj.mp (otherPlace.symm.trans (roundedZ ▸ samePlace))]

end NumberRule

/-! ### Outcomes with nothing but repetitions -/

/-- Whether an outcome reports something, and only items that repeat. -/
structure Outcome.Repeats (outcome : Outcome) : Prop where
  reported : outcome.faults ≠ []
  causes : ∀ fault ∈ outcome.faults, fault.cause = .refined .itemsRepeat

namespace Outcome.Repeats

variable {outcome : Outcome}

theorem eq_error (repeats : outcome.Repeats) : ∃ faults, outcome = .error faults ∧ faults ≠ [] ∧
    ∀ fault ∈ faults, fault.cause = .refined .itemsRepeat := by
  obtain ⟨reported, causes⟩ := repeats
  cases outcome with
  | ok value => exact absurd rfl reported
  | error faults => exact ⟨faults, rfl, reported, causes⟩

theorem ne_ok (repeats : outcome.Repeats) (value : Value) : outcome ≠ .ok value := by
  rintro rfl
  exact repeats.reported rfl

theorem under (repeats : outcome.Repeats) (step : Step) : (Outcome.under step outcome).Repeats := by
  obtain ⟨reported, causes⟩ := repeats
  constructor
  · simpa using reported
  · rw [faults_under, List.forall_mem_map]
    exact causes

theorem refuse : (Outcome.refuse (.refined .itemsRepeat)).Repeats :=
  ⟨List.cons_ne_nil _ _, by simp⟩

theorem flatMap {α : Type} {parts : List α} {outcome : α → Outcome}
    (each : ∀ part ∈ parts, (∃ value, outcome part = .ok value) ∨ (outcome part).Repeats)
    (found : ∃ part ∈ parts, (outcome part).Repeats) :
    Outcome.Repeats (.error (parts.flatMap fun part => (outcome part).faults)) := by
  constructor
  · obtain ⟨part, membership, repeats⟩ := found
    intro none
    exact repeats.reported (List.flatMap_eq_nil_iff.mp none part membership)
  · intro fault reported
    obtain ⟨part, membership, inside⟩ := List.mem_flatMap.mp reported
    rcases each part membership with ⟨value, accepted⟩ | repeats
    · simp [accepted, Outcome.faults] at inside
    · exact repeats.causes fault inside

end Outcome.Repeats

/-- How a value fares that is validated again: it stays as it is, unless something repeats. -/
structure StaysOrRepeats (form : Form) (value : Value) : Prop where
  stays : ¬ RepeatsAgain form value → value.check form = .ok value
  repeats : RepeatsAgain form value → (value.check form).Repeats

/-! ### Several parts -/

theorem StaysOrRepeats.seenFrom {form : Form} {value : Value} (fares : StaysOrRepeats form value)
    (step : Step) : (∃ result, under step (value.check form) = .ok result) ∨
      (under step (value.check form)).Repeats := by
  by_cases repeats : RepeatsAgain form value
  · exact .inr ((fares.repeats repeats).under step)
  · exact .inl ⟨value, under_eq_ok_iff.mpr (fares.stays repeats)⟩

section
variable {parts : List (Value × Form)} (each : ∀ part ∈ parts, StaysOrRepeats part.2 part.1)

include each

/-- Where nothing repeats within the parts, each of them stays as it is. -/
theorem outcomes_of_parts (none : ¬ ∃ part ∈ parts, RepeatsAgain part.2 part.1) :
    (parts.map fun part => part.1.check part.2) = (parts.map Prod.fst).map .ok := by
  rw [List.map_map]
  refine List.map_congr_left fun part membership => ?_
  exact (each part membership).stays fun repeats => none ⟨part, membership, repeats⟩

/-- Where something repeats within a part, all faults of the parts are repetitions. -/
theorem collect_of_parts (found : ∃ part ∈ parts, RepeatsAgain part.2 part.1) :
    ∃ faults, collect (atPositions 0 (parts.map fun part => part.1.check part.2)) = .error faults ∧
      Outcome.Repeats (.error faults) := by
  obtain ⟨part, membership, again⟩ := found
  have repeats := (each part membership).repeats again
  cases collected : collect (atPositions 0 (parts.map fun part => part.1.check part.2)) with
  | ok values =>
      have same := collect_atPositions_eq_ok_iff.mp collected
      obtain ⟨result, accepted⟩ := exists_eq_map_ok_iff.mp ⟨values, same⟩ _
        (List.mem_map_of_mem membership)
      exact absurd accepted (repeats.ne_ok result)
  | error faults =>
      have placed : faults = parts.zipIdx.flatMap fun place =>
          (under (.index place.2) (place.1.1.check place.1.2)).faults := by
        rw [collect_eq_error collected, atPositions_eq, List.zipIdx_map, List.map_map,
          List.flatMap_map]
        rfl
      refine ⟨faults, rfl, placed ▸ .flatMap ?_ ?_⟩
      · intro place inPlaces
        exact (each place.1 (List.fst_mem_of_mem_zipIdx inPlaces)).seenFrom _
      · obtain ⟨position, found⟩ := List.mem_iff_getElem?.mp membership
        exact ⟨(part, position), List.mk_mem_zipIdx_iff_getElem?.mpr found, repeats.under _⟩

end

/-! ### One form after the other -/

theorem finishList_of_short {items : List Value} {minLength : Option Nat} {unique : Bool}
    {outcomes : List Outcome} (collected : collect (atPositions 0 outcomes) = .ok items)
    (enough : minLength.getD 0 ≤ items.length)
    (short : unique = true → ∀ part ∈ items, part.hasLongNumber = false) :
    finishList items minLength unique outcomes =
      if unique && hasDuplicates items then refuse (.refined .itemsRepeat) else .ok (.list items) := by
  rw [finishList, collected]
  simp only [if_neg (Nat.not_lt.mpr enough)]
  cases unique with
  | false => rfl
  | true =>
      rw [if_pos rfl, repetition?_of_short (short rfl), Bool.true_and]
      cases hasDuplicates items <;> rfl

namespace StaysOrRepeats

variable {form : Form} {value : Value}

theorem of_repeats (again : RepeatsAgain form value) (repeats : (value.check form).Repeats) :
    StaysOrRepeats form value :=
  ⟨fun none => absurd again none, fun _ => repeats⟩

theorem of_stays (none : ¬ RepeatsAgain form value) (stays : value.check form = .ok value) :
    StaysOrRepeats form value :=
  ⟨fun _ => stays, fun again => absurd again none⟩

theorem list {item : Form} {minLength : Option Nat} {unique : Bool} {items : List Value}
    (enough : minLength.getD 0 ≤ items.length)
    (short : unique = true → ∀ part ∈ items, part.hasLongNumber = false)
    (each : ∀ part ∈ items, StaysOrRepeats item part) :
    StaysOrRepeats (.list item minLength unique) (.list items) := by
  have parts : ∀ part ∈ items.map (·, item), StaysOrRepeats part.2 part.1 :=
    List.forall_mem_map.mpr each
  have within_iff : (∃ part ∈ items.map (·, item), RepeatsAgain part.2 part.1) ↔
      ∃ part ∈ items, RepeatsAgain item part := by simp
  have checked : (Value.list items).check (.list item minLength unique) =
      finishList items minLength unique ((items.map (·, item)).map fun part => part.1.check part.2) := by
    rw [check_whole rfl, List.map_map]
    rfl
  by_cases within : ∃ part ∈ items, RepeatsAgain item part
  · obtain ⟨faults, collected, repeats⟩ := collect_of_parts parts (within_iff.mpr within)
    refine of_repeats (repeatsAgain_list_iff.mpr (.inr within)) ?_
    rw [checked, finishList, collected]
    exact repeats
  · have outcomes := outcomes_of_parts parts (mt within_iff.mp within)
    have same : (items.map (·, item)).map Prod.fst = items := by
      rw [List.map_map]
      exact List.map_id' items
    rw [same] at outcomes
    rw [finishList_of_short (collect_atPositions_eq_ok_iff.mpr outcomes) enough short] at checked
    by_cases repeats : unique = true ∧ hasDuplicates items = true
    · refine of_repeats (repeatsAgain_list_iff.mpr (.inl repeats)) ?_
      rw [checked, if_pos (by simp [repeats])]
      exact .refuse
    · refine of_stays ?_ ?_
      · rw [repeatsAgain_list_iff]
        exact not_or.mpr ⟨repeats, within⟩
      · rw [checked, if_neg (by simpa using repeats)]

theorem tuple {positions : List Form} {distinct : Bool} {items : List Value}
    (length : items.length = positions.length)
    (differ : distinct = true → startsWithEqualNumbers items = false)
    (each : ∀ part ∈ items.zip positions, StaysOrRepeats part.2 part.1) :
    StaysOrRepeats (.tuple positions distinct) (.tuple items) := by
  have checked : (Value.tuple items).check (.tuple positions distinct) =
      finishTuple positions.length items.length distinct
        ((items.zip positions).map fun part => part.1.check part.2) := by
    rw [check_whole rfl, checkSettled, checkPositions_eq, length, List.drop_length, List.map_nil,
      List.append_nil]
  rw [length, finishTuple, if_neg (lt_irrefl _)] at checked
  by_cases within : ∃ part ∈ items.zip positions, RepeatsAgain part.2 part.1
  · obtain ⟨faults, collected, repeats⟩ := collect_of_parts each within
    refine of_repeats (repeatsAgain_tuple_iff.mpr within) ?_
    rw [checked, collected]
    exact repeats
  · have outcomes := outcomes_of_parts each within
    rw [List.map_fst_zip length.le] at outcomes
    refine of_stays (mt repeatsAgain_tuple_iff.mp within) ?_
    rw [checked, collect_atPositions_eq_ok_iff.mpr outcomes]
    exact if_neg (by simpa using differ)

theorem dictionary {key : TextRule} {item : Form} {entries : List (Atom × Value)}
    (keys : ∀ entry ∈ entries, ∃ content, entry.1 = .text content ∧ key.Accepts content)
    (each : ∀ entry ∈ entries, StaysOrRepeats item entry.2) :
    StaysOrRepeats (.dictionary key item) (.mapping entries) := by
  have accepted (entry : Atom × Value) (membership : entry ∈ entries) :
      key.checkKey entry.1 = [] ∧ entry.1.asText = entry.1 := by
    obtain ⟨name, isText, accepted⟩ := keys entry membership
    rw [isText]
    exact ⟨TextRule.checkKey_text.mpr accepted, Atom.asText_text name⟩
  have checked : (Value.mapping entries).check (.dictionary key item) =
      (finishDictionary key (entries.map fun entry => (entry.1, entry.2.check item))).map .mapping :=
    check_whole rfl _
  by_cases within : ∃ entry ∈ entries, RepeatsAgain item entry.2
  · refine of_repeats (repeatsAgain_dictionary_iff.mpr within) ?_
    obtain ⟨entry, membership, again⟩ := within
    have repeats := (each entry membership).repeats again
    rw [checked]
    cases finished : finishDictionary key (entries.map fun entry => (entry.1, entry.2.check item)) with
    | ok values =>
        obtain ⟨_, same⟩ := finishDictionary_eq_ok_iff.mp finished
        rw [List.map_map] at same
        have inValues := same ▸ List.mem_map_of_mem membership
        obtain ⟨value, _, paired⟩ := List.mem_map.mp inValues
        exact absurd (Prod.mk.inj paired).2.symm (repeats.ne_ok _)
    | error faults =>
        have placed : faults = entries.flatMap fun entry =>
            (under (.key entry.1) (entry.2.check item)).faults := by
          rw [finishDictionary_eq_error finished, List.flatMap_map]
          refine List.flatMap_congr fun entry membership => ?_
          rw [(accepted entry membership).1, List.nil_append]
        rw [placed]
        exact .flatMap (fun entry membership => (each entry membership).seenFrom _)
          ⟨entry, membership, repeats.under _⟩
  · refine of_stays (mt repeatsAgain_dictionary_iff.mp within) ?_
    have finished : finishDictionary key (entries.map fun entry => (entry.1, entry.2.check item)) =
        .ok entries := by
      rw [finishDictionary_eq_ok_iff, List.forall_mem_map, List.map_map]
      refine ⟨fun entry membership => (accepted entry membership).1,
        List.map_congr_left fun entry membership => ?_⟩
      rw [Function.comp_apply, (accepted entry membership).2,
        (each entry membership).stays fun again => within ⟨entry, membership, again⟩]
    rw [checked, finished]
    rfl

theorem choice {dispatch : Dispatch} {branches : List (String × Form)} {label : String}
    (found : dispatch.label? value = some label) (entered : branches.lookup label = some form)
    (fares : StaysOrRepeats form value) : StaysOrRepeats (.choice dispatch branches) value := by
  constructor
  · intro none
    rw [repeatsAgain_choice_iff found entered] at none
    rw [check_choice found entered, fares.stays none]
    rfl
  · intro again
    rw [repeatsAgain_choice_iff found entered] at again
    rw [check_choice found entered]
    exact (fares.repeats again).under _

theorem record {name : ModelName} {fields : List (String × Value)} :
    StaysOrRepeats (.model name) (.record name fields) := by
  refine of_stays ?_ ?_
  · rintro ⟨again, looks, _⟩
    cases looks
  · rw [check_whole rfl]
    exact if_pos rfl

theorem anyJson (stays : value.checkJson = .ok value) : StaysOrRepeats .anyJson value := by
  refine of_stays ?_ ?_
  · rintro ⟨again, looks, _⟩
    cases looks
  · rw [check_whole rfl, checkSettled_anyJson, stays]

theorem atomic (conforms : Conforms form value) (atomic : form.isAtomic = true)
    (regular : form.isRegular = true) : StaysOrRepeats form value := by
  have stays : TakenWhole form value value := by
    cases conforms with
    | text accepted => exact .text accepted.check_eq
    | number accepted => exact .number (NumberRule.check_stays regular accepted)
    | literal chosen => exact .literal chosen
    | flag => exact .flag
    | _ => simp [Form.isAtomic] at atomic
  refine of_stays ?_ ?_
  · rintro ⟨again, looks, _⟩
    cases looks <;> simp [Form.isAtomic] at atomic
  · rw [check_atomic atomic, checkWhole_eq_ok_iff.mpr stays]

end StaysOrRepeats

/-! ### Whole values -/

section
variable {form : Form} {value result : Value}

/-- Whatever a value has become stays as it is, unless something repeats in it. -/
theorem Becomes.staysOrRepeats (becomes : Becomes form value result)
    (uniform : form.isUniform = true) : StaysOrRepeats form result := by
  induction becomes with
  | @atomic form value result atomic conforms =>
      have regular : form.isRegular = true := by
        cases form <;> first | exact uniform | simp [Form.isAtomic] at atomic
      exact .atomic conforms atomic regular
  | anyJson accepted => exact .anyJson (checkJson_again accepted)
  | @list item minLength unique value items itemsOf enough differ each inductionHypothesis =>
      have itemUniform : item.isUniform = true :=
        Form.isUniform_component uniform List.mem_cons_self
      refine .list (by rwa [List.length_map]) (fun needed => ?_) ?_
      · obtain ⟨_, short⟩ := repetition?_eq_none_iff.mp (differ needed)
        rw [List.forall_mem_map]
        exact fun part membership =>
          (each part membership).hasLongNumber_eq_false (short part membership)
      · rw [List.forall_mem_map]
        exact fun part membership => inductionHypothesis part membership itemUniform
  | @tuple positions distinct value items itemsOf length differ each inductionHypothesis =>
      refine .tuple (by simp [length]) differ ?_
      rw [zip_checked length, List.forall_mem_map]
      exact fun part membership => inductionHypothesis part membership
        (Form.isUniform_component uniform (List.of_mem_zip membership).2)
  | @dictionary key item entries keys _ inductionHypothesis =>
      have itemUniform : item.isUniform = true :=
        Form.isUniform_component uniform List.mem_cons_self
      refine .dictionary (List.forall_mem_map.mpr keys) (List.forall_mem_map.mpr ?_)
      exact fun entry membership => inductionHypothesis entry membership itemUniform
  | model => exact .record
  | record => exact .record
  | @choice dispatch branches label form value result _ entered becomes inductionHypothesis =>
      have choice := Form.regularChoice_iff.mp uniform
      have inBranches := lookup_eq_some_mem entered
      have regular := choice.branchRegular _ inBranches
      have found := becomes.conforms.label?_eq regular (choice.suited inBranches)
      exact .choice found entered (inductionHypothesis (Form.isUniform_of_isRegular regular))

/-- A validated value is validated to itself, unless two items have become the same in some list that is
looked at again.  Then nothing is reported but items that repeat. -/
theorem check_again (grammar : form.IsOfGrammar) (sound : value.IsSound)
    (accepted : value.check form = .ok result) :
    ((∀ items, LooksAgain form result items → hasDuplicates items = false) →
      result.check form = .ok result) ∧
    ((∃ items, LooksAgain form result items ∧ hasDuplicates items = true) →
      ∃ faults, result.check form = .error faults ∧ faults ≠ [] ∧
        ∀ fault ∈ faults, fault.cause = .refined .itemsRepeat) := by
  have fares := (sound.becomes accepted).staysOrRepeats grammar.isUniform
  constructor
  · intro differ
    apply fares.stays
    rintro ⟨items, looks, same⟩
    exact Bool.false_ne_true ((differ items looks).symm.trans same)
  · exact fun again => (fares.repeats again).eq_error

end

theorem not_looksAgain_comparison (value : Value) (items : List Value) :
    ¬ LooksAgain .comparison value items := by
  intro looks
  cases looks with
  | position membership looks =>
      have inPositions := (List.of_mem_zip membership).2
      rw [List.mem_pair] at inPositions
      rcases inPositions with isText | isOperand
      · rw [isText] at looks
        cases looks
      · rw [isOperand] at looks
        cases looks with
        | branch _ entered looks =>
            have inBranches := lookup_eq_some_mem entered
            rw [List.map_cons, List.map_cons, List.map_nil, List.mem_pair] at inBranches
            rcases inBranches with isText | isNumber
            · cases (Prod.mk.inj isText).2
              cases looks
            · cases (Prod.mk.inj isNumber).2
              cases looks

def nearbyLimits : List Value :=
  [.object [("gte", .list [.text "foo", .integer 9007199254740992])],
    .object [("gte", .list [.text "foo", .integer 9007199254740993])]]

/-- A comparison stays as it is once its limit has been rounded; two of them may come to repeat. -/
theorem check_again_roundedLimits :
    (∃ result, (Value.list [.text "foo", .integer 9007199254740993]).check .comparison = .ok result ∧
      result.check .comparison = .ok result) ∧
    ∃ result faults, (Value.list nearbyLimits).check .predicates = .ok result ∧
      result.check .predicates = .error faults ∧ faults ≠ [] ∧
        ∀ fault ∈ faults, fault.cause = .refined .itemsRepeat := by
  have json : (Value.list [.text "foo", .integer 9007199254740993]).IsJson := by decide
  have jsonToo : (Value.list nearbyLimits).IsJson := by decide
  have grammar : Form.comparison.IsOfGrammar :=
    @Form.IsOfGrammar.named "Comparison" _ (by simp [Form.named])
  have grammarToo : Form.predicates.IsOfGrammar :=
    @Form.IsOfGrammar.named "PredicateList" _ (by simp [Form.named])
  constructor
  · have passes : (Value.list [.text "foo", .integer 9007199254740993]).Passes .comparison :=
      (Value.givesReason _ _ rfl).faults_eq_nil_iff.mp (by decide +kernel)
    obtain ⟨result, accepted⟩ := passes
    refine ⟨result, accepted, (check_again grammar json.isSound accepted).1 fun items looks => ?_⟩
    exact absurd looks (not_looksAgain_comparison result items)
  · have passes : (Value.list nearbyLimits).Passes .predicates :=
      (Value.givesReason _ _ rfl).faults_eq_nil_iff.mp (by decide +kernel)
    obtain ⟨result, accepted⟩ := passes
    obtain ⟨_, _, rfl⟩ := check_unique_eq_ok accepted
    have again : ∃ items, LooksAgain .predicates
        (.list (nearbyLimits.map fun value => value.checked .predicate)) items ∧
          hasDuplicates items = true :=
      ⟨_, .here, by decide +kernel⟩
    obtain ⟨faults, repeated⟩ := (check_again grammarToo jsonToo.isSound accepted).2 again
    exact ⟨_, faults, accepted, repeated⟩

end AnimationGrammar
