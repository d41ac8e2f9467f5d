import AnimationGrammar.Proofs.Number.Text
import AnimationGrammar.Proofs.Validation.Acceptance
import AnimationGrammar.Proofs.Validation.Resolution

/-!
Keys and items that are missing.

`Lacks value fault` describes how the location of a missing part leads through any value, whether it is
JSON or not: over names of fields and positions that exist, past labels that are names of no field.  The
path of such a fault is found again exactly where no object on the way is of the type that names the step
taken from it.  The object that lacks the key is one of them.
-/

namespace AnimationGrammar

open Outcome Value Form

/-- Whether a value could have a part at a step, and has none. -/
inductive Value.IsWithout : Value → Atom → Prop
  | key {entries name} : lookupText name entries = none →
      IsWithout (.mapping entries) (.text name)
  | position {value items} {position : Nat} :
      value.items? = some items → items.length ≤ position →
      IsWithout value (.number (.integer position))

/-- How the location of a missing part leads through a value. -/
inductive Lacks : Value → Fault → Prop
  | field {entries name} : name ∈ declaredNames → lookupText name entries = none →
      Lacks (.mapping entries) ⟨[.key (.text name)], .missing⟩
  | item {value items position} : value.items? = some items → items.length ≤ position →
      Lacks value ⟨[.index position], .missing⟩
  | branch {value label fault} : label ∈ value.unionTags → label ∉ declaredNames →
      Lacks value fault → Lacks value (fault.under (.label label))
  | inField {entries name part fault} : name ∈ declaredNames →
      lookupText name entries = some part → Lacks part fault →
      Lacks (.mapping entries) (fault.under (.key (.text name)))
  | inItem {value items position part fault} : value.items? = some items →
      items[position]? = some part → Lacks part fault →
      Lacks value (fault.under (.index position))

/-! ### Labels are names of no field -/

theorem Kind.label_not_declared (kind : Kind) : kind.label ∉ declaredNames := by
  have apart : ∀ other ∈ [Kind.null, .boolean, .number, .string, .array, .object],
      other.label ∉ declaredNames := by
    decide +kernel
  apply apart
  cases kind <;> decide

theorem integerText_not_declared (n : Nat) : integerText n ∉ declaredNames := by
  have spelled : (declaredNames.all fun name => name.toList.any fun c => !c.isDigit) = true := by
    decide +kernel
  intro declared
  obtain ⟨c, membership, noDigit⟩ := List.any_eq_true.mp (List.all_eq_true.mp spelled _ declared)
  have digit : c.isDigit = true := by
    rw [integerText_toList, if_neg (by omega)] at membership
    exact isDigit_of_mem_decimalDigits membership
  simp [digit] at noDigit

theorem Dispatch.Suits.not_declared {dispatch : Dispatch} {label : String} {form : Form}
    (suits : dispatch.Suits label form) : label ∉ declaredNames := by
  cases suits with
  | @kind kind _ => exact kind.label_not_declared
  | predicate predicate =>
      exact objectLabel_not_declared _ <|
        List.mem_cons_of_mem _ (List.mem_append_left _ (List.mem_map_of_mem predicate))
  | rollOption => decide +kernel
  | filter filter =>
      exact objectLabel_not_declared _ <|
        List.mem_cons_of_mem _ (List.mem_append_right _ (List.mem_map.mpr ⟨_, filter, rfl⟩))
  | length => exact integerText_not_declared _

theorem Form.Settles.label_not_declared {value : Value} {form inner : Form} {labels : List String}
    (regular : form.isRegular = true) (settles : form.Settles value labels inner) :
    ∀ label ∈ labels, label ∉ declaredNames := by
  induction settles with
  | whole => simp
  | branch _ entered _ inductionHypothesis =>
      have choice := regularChoice_iff.mp regular
      have membership := lookup_eq_some_mem entered
      intro label inLabels
      rcases List.mem_cons.mp inLabels with rfl | later
      · exact (choice.suited membership).not_declared
      · exact inductionHypothesis (choice.branchRegular _ membership) label later

/-! ### Every missing part is lacking somewhere -/

theorem TextRule.checkKey_ne_missing {rule : TextRule} {key : Atom} {fault : Fault}
    (reported : fault ∈ rule.checkKey key) : fault.cause ≠ .missing := by
  rw [checkKey] at reported
  split at reported
  next => simp at reported
  next cause unread =>
      rw [List.mem_singleton.mp reported]
      rintro rfl
      exact read_ne_missing unread

theorem Value.jsonFaults_ne_missing (value : Value) :
    ∀ fault ∈ value.jsonFaults, fault.cause ≠ .missing := by
  induction value using layerInduction with
  | atom a => cases a <;> simp [jsonFaults]
  | tuple items => simp [jsonFaults]
  | record model fields => simp [jsonFaults]
  | list items inductionHypothesis =>
      have ofItems : ∀ position, ∀ fault ∈ jsonItemFaults position items,
          fault.cause ≠ .missing := by
        induction items with
        | nil => simp [jsonItemFaults]
        | cons item rest restHypothesis =>
            rw [List.forall_mem_cons] at inductionHypothesis
            intro position fault reported
            rw [jsonItemFaults, List.mem_append, List.mem_map] at reported
            rcases reported with ⟨inner, inside, rfl⟩ | later
            · exact inductionHypothesis.1 inner inside
            · exact restHypothesis inductionHypothesis.2 _ fault later
      rintro fault reported
      obtain ⟨inner, inside, rfl⟩ := List.mem_map.mp reported
      exact ofItems 0 inner inside
  | mapping entries inductionHypothesis =>
      have ofEntries : ∀ fault ∈ jsonEntryFaults entries, fault.cause ≠ .missing := by
        induction entries with
        | nil => simp [jsonEntryFaults]
        | cons entry rest restHypothesis =>
            rcases entry with ⟨key, value⟩
            rw [List.forall_mem_cons] at inductionHypothesis
            intro fault reported
            simp only [jsonEntryFaults, List.mem_append, List.mem_map] at reported
            rcases reported with (ofKey | ⟨inner, inside, rfl⟩) | later
            · exact TextRule.checkKey_ne_missing ofKey
            · exact inductionHypothesis.1 inner inside
            · exact restHypothesis inductionHypothesis.2 fault later
      rintro fault reported
      obtain ⟨inner, inside, rfl⟩ := List.mem_map.mp reported
      exact ofEntries inner inside

theorem Value.checkJson_ne_missing {value : Value} {fault : Fault}
    (reported : fault ∈ value.checkJson.faults) : fault.cause ≠ .missing := by
  rw [checkJson] at reported
  split at reported
  · simp [Outcome.faults] at reported
  · exact value.jsonFaults_ne_missing fault reported

theorem Value.checkWhole_ne_missing {value : Value} {form : Form} {fault : Fault}
    (reported : fault ∈ (value.checkWhole form).faults) : fault.cause ≠ .missing := by
  obtain ⟨cause, rfl, different⟩ := checkWhole_faults reported
  exact different

theorem Lacks.within {value : Value} {labels : List String} {fault : Fault}
    (tags : ∀ label ∈ labels, label ∈ value.unionTags)
    (unknown : ∀ label ∈ labels, label ∉ declaredNames) (lacks : Lacks value fault) :
    Lacks value (fault.within labels) := by
  induction labels with
  | nil => exact lacks
  | cons label rest inductionHypothesis =>
      rw [List.forall_mem_cons] at tags unknown
      exact .branch tags.1 unknown.1 (inductionHypothesis tags.2 unknown.2)

theorem Value.checkSettled_list (value : Value) (item : Form) (minLength : Option Nat)
    (unique : Bool) :
    value.checkSettled (.list item minLength unique) =
      match value.items? with
      | some items => finishList items minLength unique (items.map fun part => part.check item)
      | none => value.checkWhole (.list item minLength unique) := by
  cases value <;> rfl

theorem Value.checkSettled_tuple (value : Value) (positions : List Form) (distinct : Bool) :
    value.checkSettled (.tuple positions distinct) =
      match value.items? with
      | some items =>
          finishTuple positions.length items.length distinct (checkPositions items positions)
      | none => value.checkWhole (.tuple positions distinct) := by
  cases value <;> rfl

section
variable {value : Value} {items : List Value} {form : Form} {fault : Fault}

theorem lacks_of_finishList {minLength : Option Nat} {unique : Bool}
    (itemsOf : value.items? = some items)
    (each : ∀ item ∈ items, ∀ inner ∈ (item.check form).faults, inner.cause = .missing →
      Lacks item inner)
    (reported : fault ∈
      (finishList items minLength unique (items.map fun item => item.check form)).faults)
    (absent : fault.cause = .missing) : Lacks value fault := by
  rcases mem_faults_finishList reported with
    ⟨cause, rfl, different⟩ | ⟨position, item, inner, found, inside, rfl⟩
  · exact absurd absent different
  · exact .inItem itemsOf found (each item (List.mem_of_getElem? found) inner inside absent)

theorem lacks_of_finishTuple {positions : List Form} {distinct : Bool}
    (itemsOf : value.items? = some items)
    (each : ∀ item ∈ items, ∀ form ∈ positions, ∀ inner ∈ (item.check form).faults,
      inner.cause = .missing → Lacks item inner)
    (reported : fault ∈ (finishTuple positions.length items.length distinct
      (checkPositions items positions)).faults)
    (absent : fault.cause = .missing) : Lacks value fault := by
  rcases mem_faults_finishTuple reported with ⟨cause, rfl, different⟩ |
    ⟨position, item, form, inner, found, inPositions, inside, rfl⟩ | ⟨position, long, rfl⟩
  · exact absurd absent different
  · refine .inItem itemsOf found ?_
    exact each item (List.mem_of_getElem? found) form inPositions inner inside absent
  · exact .item itemsOf long

theorem lacks_of_assemble {name : ModelName} {entries : List (Atom × Value)}
    (each : ∀ entry ∈ entries, ∀ form : Form, form.isRegular = true →
      ∀ inner ∈ (entry.2.check form).faults, inner.cause = .missing → Lacks entry.2 inner)
    (reported : fault ∈ (name.assemble (entryOutcomes name.definition entries)).faults)
    (absent : fault.cause = .missing) : Lacks (.mapping entries) fault := by
  rcases mem_faults_assemble reported with
    ⟨refinement, rfl, _⟩ | ⟨field, membership, reports⟩ | unknown
  · simp at absent
  · have declared := name.fieldName_declared (Definition.mem_fieldNames membership)
    have outcomeOf := lookupText_entryOutcomes membership entries
    cases reports with
    | missing none =>
        rw [outcomeOf, Option.map_eq_none_iff] at none
        exact .field declared none
    | excluded => simp at absent
    | inside refused inFaults =>
        rw [outcomeOf, Option.map_eq_some_iff] at refused
        obtain ⟨part, looked, equality⟩ := refused
        refine .inField declared looked ?_
        refine each _ (lookupText_eq_some_mem looked) field.form
          (name.field_isRegular field membership) _ ?_ absent
        rwa [equality]
  · obtain ⟨_, _, _, different⟩ := mem_unknownKeys unknown
    exact absurd absent different

theorem missing_settles (reported : fault ∈ (value.check form).faults)
    (absent : fault.cause = .missing) :
    ∃ labels inner inside, form.Settles value labels inner ∧
      inside ∈ (value.checkSettled inner).faults ∧ inside.cause = .missing ∧
        fault = inside.within labels := by
  rcases settles_or_strays value form with
    ⟨labels, inner, settles, _⟩ | ⟨labels, cause, strays, _⟩
  · rw [check_of_settles settles, faults_underLabels, List.mem_map] at reported
    obtain ⟨inside, found, rfl⟩ := reported
    exact ⟨labels, inner, inside, settles, found, by rwa [Fault.within_cause] at absent, rfl⟩
  · rw [check_of_strays strays, faults_underLabels, faults_refuse, List.map_singleton,
      List.mem_singleton] at reported
    rw [reported, Fault.within_cause] at absent
    exact absurd absent strays.cause_ne_missing

end

/-- Whether everything that validation finds missing from a value is lacked by some part of it. -/
def Value.LacksWhatIsMissing (value : Value) : Prop :=
  ∀ form : Form, form.isRegular = true →
    ∀ fault ∈ (value.check form).faults, fault.cause = .missing → Lacks value fault

theorem lacks_step {value : Value} (noRecord : value.isRecord = false)
    (ofItems : ∀ items, value.items? = some items → ∀ item ∈ items, item.LacksWhatIsMissing)
    (ofEntries : ∀ entries, value = .mapping entries →
      ∀ entry ∈ entries, entry.2.LacksWhatIsMissing) : value.LacksWhatIsMissing := by
  intro form regular fault reported absent
  obtain ⟨labels, inner, inside, settles, found, none, rfl⟩ := missing_settles reported absent
  refine Lacks.within (settles.label_mem_unionTags noRecord) (settles.label_not_declared regular) ?_
  have innerRegular := settles.isRegular regular
  cases inner with
  | list item minLength unique =>
      rw [checkSettled_list] at found
      split at found
      next items itemsOf =>
          refine lacks_of_finishList itemsOf (fun part membership => ?_) found none
          exact ofItems items itemsOf part membership item innerRegular
      next => exact absurd none (checkWhole_ne_missing found)
  | tuple positions distinct =>
      simp only [isRegular, Bool.and_eq_true, areRegular_iff] at innerRegular
      rw [checkSettled_tuple] at found
      split at found
      next items itemsOf =>
          refine lacks_of_finishTuple itemsOf (fun part membership form inPositions => ?_) found none
          exact ofItems items itemsOf part membership form (innerRegular.1 form inPositions)
      next => exact absurd none (checkWhole_ne_missing found)
  | model name =>
      cases value with
      | mapping entries => exact lacks_of_assemble (ofEntries entries rfl) found none
      | _ =>
          simp only [checkSettled] at found
          exact absurd none (checkWhole_ne_missing found)
  | dictionary key item => simp [isRegular] at innerRegular
  | anyJson =>
      rw [checkSettled_anyJson] at found
      exact absurd none (checkJson_ne_missing found)
  | _ =>
      simp only [checkSettled] at found
      exact absurd none (checkWhole_ne_missing found)

/-- Whatever validation finds missing, in a value of any kind, some part of the value lacks it. -/
theorem lacks_of_check (value : Value) : value.LacksWhatIsMissing := by
  induction value using layerInduction with
  | atom a => exact lacks_step rfl (by simp [items?]) (by simp)
  | list items inductionHypothesis =>
      refine lacks_step rfl ?_ (by simp)
      rintro _ ⟨⟩
      exact inductionHypothesis
  | tuple items inductionHypothesis =>
      refine lacks_step rfl ?_ (by simp)
      rintro _ ⟨⟩
      exact inductionHypothesis
  | mapping entries inductionHypothesis =>
      refine lacks_step rfl (by simp [items?]) ?_
      rintro _ ⟨⟩
      exact inductionHypothesis
  | record model fields =>
      intro form regular fault reported absent
      obtain ⟨labels, inner, inside, _, found, none, rfl⟩ := missing_settles reported absent
      cases inner with
      | anyJson =>
          rw [checkSettled_anyJson] at found
          exact absurd none (checkJson_ne_missing found)
      | _ =>
          simp only [checkSettled] at found
          exact absurd none (checkWhole_ne_missing found)

/-! ### Where the way is clear -/

/-- Whether no object on a way is of the type that names the step taken from it. -/
def Value.HasClearWay : Path → Value → Prop
  | [], _ => True
  | step :: rest, value =>
      (∀ tag ∈ value.typeTag?, step ≠ .text tag) ∧ ∀ part ∈ value.enter? step, part.HasClearWay rest

instance Value.decidableHasClearWay : (path : Path) → (value : Value) →
    Decidable (value.HasClearWay path)
  | [], _ => .isTrue trivial
  | step :: rest, value =>
      have (part : Value) : Decidable (part.HasClearWay rest) := decidableHasClearWay rest part
      inferInstanceAs (Decidable ((∀ tag ∈ value.typeTag?, step ≠ .text tag) ∧
        ∀ part ∈ value.enter? step, part.HasClearWay rest))

def isPlaceStep : Atom → Bool
  | .text name => name ∈ declaredNames
  | _ => true

/-- The name of a field is the label of an object only if it is the type of the object. -/
theorem Value.isTag_eq_false_iff {entries : List (Atom × Value)} {name : String}
    (declared : name ∈ declaredNames) :
    (Value.mapping entries).isTag (.text name) = false ↔
      ∀ tag ∈ (Value.mapping entries).typeTag?, Atom.text name ≠ .text tag := by
  constructor
  · rintro noTag tag typed ⟨⟩
    rw [typeTag?] at typed
    split at typed
    next type looked =>
        rw [Option.mem_some_iff] at typed
        simp [isTag, unionTags, looked, typed] at noTag
    next => simp at typed
  · intro clear
    refine isTag_declared declared ?_
    rintro tag looked rfl
    exact clear tag (by simp [typeTag?, looked]) rfl

theorem Value.enter?_position {value : Value} {items : List Value}
    (itemsOf : value.items? = some items) (position : Nat) :
    value.enter? (.number (.integer position)) = items[position]? := by
  cases value with
  | list own =>
      cases itemsOf
      simp [enter?, Atom.position?]
  | tuple own =>
      cases itemsOf
      simp [enter?, Atom.position?]
  | _ => simp [items?] at itemsOf

section
variable {value : Value} {fault : Fault}

theorem Lacks.items_ne_nil (lacks : Lacks value fault) : fault.items ≠ [] := by
  cases lacks <;> simp [Fault.items, Fault.under]

/-- The labels are what the place of a missing part leaves out of its location. -/
theorem Lacks.place_eq (lacks : Lacks value fault) :
    fault.place = fault.items.filter isPlaceStep := by
  induction lacks with
  | field declared _ => simp [Fault.place, Fault.items, Step.place?, Step.item, isPlaceStep, declared]
  | item => rfl
  | @branch value label fault _ unknown _ inductionHypothesis =>
      have same : (fault.under (.label label)).items = .text label :: fault.items := rfl
      have label : isPlaceStep (.text label) = false := by simpa [isPlaceStep] using unknown
      rw [Fault.place_label, inductionHypothesis, same, List.filter_cons_of_neg (by simp [label])]
  | @inField entries name part fault declared _ _ inductionHypothesis =>
      have same : (fault.under (.key (.text name))).items = .text name :: fault.items := rfl
      have field : isPlaceStep (.text name) = true := by simpa [isPlaceStep] using declared
      rw [Fault.place_key, inductionHypothesis, same, List.filter_cons_of_pos field]
  | @inItem value items position part fault _ _ _ inductionHypothesis =>
      rw [Fault.place_index, inductionHypothesis]
      rfl

/-- A walk over a location that has lost a name of its place cannot find it again. -/
theorem Lacks.retrace_ne (lacks : Lacks value fault) {name : String} (declared : name ∈ declaredNames)
    (other : Value) : retrace true fault.items other ≠ .text name :: fault.place := by
  intro found
  have kept : isPlaceStep (.text name) = true := by simpa [isPlaceStep] using declared
  have walked := ((retraces true fault.items other).sublist).filter isPlaceStep
  rw [found, ← lacks.place_eq, List.filter_cons_of_pos kept, lacks.place_eq, List.filter_filter] at walked
  simp only [Bool.and_self] at walked
  have longer := walked.length_le
  simp at longer

/-- The path to something missing is found again exactly where the way there is clear. -/
theorem Lacks.retrace_eq_iff (lacks : Lacks value fault) :
    retrace true fault.items value = fault.place ↔ value.HasClearWay fault.place := by
  induction lacks with
  | @field entries name declared absent =>
      have entered : (Value.mapping entries).enter? (.text name) = none := absent
      change retrace true [.text name] (.mapping entries) = [.text name] ↔ HasClearWay [.text name] _
      rw [HasClearWay, ← isTag_eq_false_iff declared, entered]
      simp [retrace, entered]
  | @item value items position itemsOf long =>
      have entered : value.enter? (.number (.integer position)) = none := by
        rw [enter?_position itemsOf, List.getElem?_eq_none long]
      change retrace true [.number (.integer position)] value = [.number (.integer position)] ↔
        HasClearWay [.number (.integer position)] value
      simp [retrace, isTag, HasClearWay, entered]
  | @branch value label fault tag _ lacks inductionHypothesis =>
      have same : (fault.under (.label label)).items = .text label :: fault.items := rfl
      have isTag : value.isTag (.text label) = true := by simpa [isTag] using tag
      have goesOn : fault.items.isEmpty = false := by simpa using lacks.items_ne_nil
      rw [Fault.place_label, ← inductionHypothesis, same, retrace, isTag, goesOn]
      rfl
  | @inField entries name part fault declared looked lacks inductionHypothesis =>
      have same : (fault.under (.key (.text name))).items = .text name :: fault.items := rfl
      have entered : (Value.mapping entries).enter? (.text name) = some part := looked
      have goesOn : fault.items.isEmpty = false := by simpa using lacks.items_ne_nil
      rw [Fault.place_key, same, HasClearWay, ← isTag_eq_false_iff declared, retrace, entered, goesOn]
      cases isTag : (Value.mapping entries).isTag (.text name) with
      | true => simpa using lacks.retrace_ne declared (.mapping entries)
      | false => simpa using inductionHypothesis
  | @inItem value items position part fault itemsOf found lacks inductionHypothesis =>
      have same : (fault.under (.index position)).items =
          .number (.integer position) :: fault.items := rfl
      have entered : value.enter? (.number (.integer position)) = some part := by
        rw [enter?_position itemsOf, found]
      rw [Fault.place_index, same, HasClearWay, retrace, entered]
      simpa [isTag] using inductionHypothesis

/-- The place of something missing is a part of the value and then what the part is without. -/
theorem Lacks.place_split (lacks : Lacks value fault) :
    ∃ outer step inner, fault.place = outer ++ [step] ∧ value.follow? outer = some inner ∧
      inner.IsWithout step := by
  have into {value part : Value} {step : Atom} {place : Path}
      (entered : value.enter? step = some part)
      (inside : ∃ outer last inner, place = outer ++ [last] ∧ part.follow? outer = some inner ∧
        inner.IsWithout last) :
      ∃ outer last inner, step :: place = outer ++ [last] ∧ value.follow? outer = some inner ∧
        inner.IsWithout last := by
    obtain ⟨outer, last, inner, split, reached, without⟩ := inside
    exact ⟨step :: outer, last, inner, by rw [split, List.cons_append],
      by simp [follow?, entered, reached], without⟩
  induction lacks with
  | @field entries name _ absent => exact ⟨[], .text name, .mapping entries, rfl, rfl, .key absent⟩
  | @item value items position itemsOf long =>
      exact ⟨[], .number (.integer position), value, rfl, rfl, .position itemsOf long⟩
  | branch _ _ _ inductionHypothesis => exact inductionHypothesis
  | @inField entries name part fault _ looked _ inductionHypothesis =>
      rw [Fault.place_key]
      exact into looked inductionHypothesis
  | @inItem value items position part fault itemsOf found _ inductionHypothesis =>
      rw [Fault.place_index]
      refine into ?_ inductionHypothesis
      rw [enter?_position itemsOf, found]

end

/-! ### Documents -/

/-- What validation looks at for a key of a document, and by which form. -/
structure Scope where
  /-- What is put in front of every path found in the value. -/
  outer : Path
  value : Value
  form : Form

def Scope.faults (scope : Scope) : List Fault := (scope.value.check scope.form).faults

def Scope.issue (scope : Scope) (fault : Fault) : Issue :=
  (fault.issue scope.value).below scope.outer

/-- Token images are looked at with the document around them, and any other key by itself. -/
def blockScope (entries : List (Atom × Value)) (entry : Atom × Value) : Scope :=
  if entry.1 = .text tokenImagesKey then ⟨[], .mapping entries, .model .tokenImages⟩
  else ⟨[entry.1], entry.2, entryForm entry.2⟩

theorem blockScope_isRegular (entries : List (Atom × Value)) (entry : Atom × Value) :
    (blockScope entries entry).form.isRegular = true := by
  rw [blockScope]
  split
  · rfl
  · exact entryForm_isRegular entry.2

theorem blockIssues_eq_scope (entries : List (Atom × Value)) (entry : Atom × Value) :
    let scope := blockScope entries entry
    blockIssues entries entry =
      (if entry.1 = .text tokenImagesKey then [] else keyIssues entry.1) ++
        scope.faults.map scope.issue := by
  intro scope
  simp only [scope, blockScope, blockIssues]
  split <;> rfl

/--
Every key and every item that validation finds missing is reported as required, from a part of the value
that is without it.  The path of the report ends with what is missing exactly where no object on the way,
the one that lacks the key included, names the next step as its type.
-/
theorem missing_path_iff {entries : List (Atom × Value)} {entry : Atom × Value} {fault : Fault}
    (membership : entry ∈ entries) (reported : fault ∈ (blockScope entries entry).faults)
    (absent : fault.cause = .missing) :
    let scope := blockScope entries entry
    let issue := scope.issue fault
    issue ∈ validate (.mapping entries) ∧ issue.kind = .invalidType ∧ issue.message = "Required" ∧
      ∃ outer step inner, fault.place = outer ++ [step] ∧
        scope.value.follow? outer = some inner ∧ inner.IsWithout step ∧
        (issue.path = scope.outer ++ outer ++ [step] ↔
          scope.value.HasClearWay (outer ++ [step])) := by
  intro scope issue
  have lacks := lacks_of_check scope.value scope.form (blockScope_isRegular entries entry) fault
    reported absent
  obtain ⟨outer, step, inner, place, reached, without⟩ := lacks.place_split
  have path : issue.path = scope.outer ++ retrace true fault.items scope.value := by
    simp only [issue, Scope.issue, Fault.issue, Issue.below, absent, decide_true]
  refine ⟨?_, ?_, ?_, outer, step, inner, place, reached, without, ?_⟩
  · rw [validate, List.mem_flatMap]
    refine ⟨entry, membership, ?_⟩
    rw [blockIssues_eq_scope]
    exact List.mem_append_right _ (List.mem_map_of_mem reported)
  · simp only [issue, Scope.issue, Fault.issue, Issue.below, absent, Cause.issueKind]
  · simp only [issue, Scope.issue, Fault.issue, Issue.below, absent, Cause.issueMessage]
  · rw [path, List.append_assoc, List.append_cancel_left_eq, ← place, lacks.retrace_eq_iff]

/-- A key with a sound of which the effect behind walls has only a type. -/
def muffledEntry (type : String) : Atom × Value :=
  let effect := Value.mapping [(.text "type", .text type)]
  let sound :=
    Value.mapping [(.text "file", .text "sounds/hit.ogg"), (.text "muffledEffect", effect)]
  (.text "x", .list [.mapping [(.text "options", .mapping [(.text "sound", sound)])]])

def intensityFault : Fault where
  location := [.index 0, .key (.text "options"), .key (.text "sound"), .label "object",
    .key (.text "muffledEffect"), .key (.text "intensity")]
  cause := .missing

/-- The missing key ends the path, since no object on the way is of a type that is called like it. -/
theorem missing_path_lowpass :
    let entry := muffledEntry "lowpass"
    intensityFault ∈ (blockScope [entry] entry).faults ∧
      ((blockScope [entry] entry).issue intensityFault).path =
        .text "x" :: intensityFault.place := by
  intro entry
  have reported : intensityFault ∈ (blockScope [entry] entry).faults := by decide +kernel
  have clear : (blockScope [entry] entry).value.HasClearWay intensityFault.place := by
    decide +kernel
  obtain ⟨_, _, _, outer, step, inner, place, _, _, path⟩ :=
    missing_path_iff List.mem_cons_self reported rfl
  rw [List.append_assoc, ← place] at path
  exact ⟨reported, path.mpr clear⟩

/-- An effect that is called like its missing key makes the path end too early. -/
theorem missing_path_lost :
    let entry := muffledEntry "intensity"
    intensityFault ∈ (blockScope [entry] entry).faults ∧
      (validate (.mapping [entry])).map Issue.path =
        [.text "x" :: intensityFault.place.dropLast] := by
  decide +kernel

end AnimationGrammar
