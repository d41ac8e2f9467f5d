import AnimationGrammar.Validation.Path
import AnimationGrammar.Proofs.Validation.Whole

/-!
Where faults lie.

`Locates value fault` describes how the location of a fault leads through a value: over keys and
positions that exist, past labels that a union may enter for the value at hand, to a part of the value
or to a part that is missing.  Every fault that validation finds in a JSON value is located in this
sense, at any depth.
-/

namespace AnimationGrammar

open Outcome Value Form

/-- How the location of a fault leads through a value. -/
inductive Locates : Value → Fault → Prop
  /-- The value itself is at fault. -/
  | whole {value cause} : cause ≠ .missing → Locates value ⟨[], cause⟩
  /-- A branch is entered; where the way ends there, the value has no such key. -/
  | branch {value label fault} : label ∈ value.unionTags →
      (fault.location = [] → value.enter? (.text label) = none) →
      Locates value fault → Locates value (fault.under (.label label))
  /-- A key is at fault that the value does have. -/
  | given {entries name part cause} : lookupText name entries = some part → cause ≠ .missing →
      Locates (.mapping entries) ⟨[.key (.text name)], cause⟩
  | absentField {entries name} : name ∈ declaredNames → lookupText name entries = none →
      Locates (.mapping entries) ⟨[.key (.text name)], .missing⟩
  | absentItem {items position} : items.length ≤ position →
      Locates (.list items) ⟨[.index position], .missing⟩
  | field {entries name part fault} : name ∈ declaredNames →
      lookupText name entries = some part → Locates part fault →
      Locates (.mapping entries) (fault.under (.key (.text name)))
  | item {items position part fault} : items[position]? = some part → Locates part fault →
      Locates (.list items) (fault.under (.index position))

/-! ### Labels -/

theorem Dispatch.label_mem_unionTags {dispatch : Dispatch} {value : Value} {label : String}
    (noRecord : value.isRecord = false) (found : dispatch.label? value = some label) :
    label ∈ value.unionTags := by
  cases dispatch with
  | kind =>
      simp only [label?] at found
      simp [unionTags, found]
  | operator =>
      simp only [label?] at found
      simp [unionTags, found]
  | type =>
      cases value with
      | mapping entries =>
          simp only [label?, get?] at found
          cases looked : lookupText "type" entries with
          | none => simp [looked] at found
          | some tag =>
              rw [looked] at found
              split at found
              next equality => simp_all [unionTags]
              next => simp at found
      | record model fields => cases noRecord
      | atom a => simp [label?, get?] at found
      | list items => simp [label?, get?] at found
      | tuple items => simp [label?, get?] at found
  | length =>
      cases value with
      | list items =>
          simp only [label?, items?, Option.map_some, Option.some.injEq] at found
          simp [unionTags, found]
      | tuple items =>
          simp only [label?, items?, Option.map_some, Option.some.injEq] at found
          simp [unionTags, found]
      | atom a => simp [label?, items?] at found
      | mapping entries => simp [label?, items?] at found
      | record model fields => simp [label?, items?] at found

theorem Form.Settles.label_mem_unionTags {value : Value} {form inner : Form} {labels : List String}
    (noRecord : value.isRecord = false) (settles : form.Settles value labels inner) :
    ∀ label ∈ labels, label ∈ value.unionTags := by
  induction settles with
  | whole => simp
  | branch found _ _ inductionHypothesis =>
      intro label membership
      rcases List.mem_cons.mp membership with rfl | later
      · exact Dispatch.label_mem_unionTags noRecord found
      · exact inductionHypothesis label later

theorem Form.Strays.label_mem_unionTags {value : Value} {form : Form} {labels : List String}
    {cause : Cause} (noRecord : value.isRecord = false) (strays : form.Strays value labels cause) :
    ∀ label ∈ labels, label ∈ value.unionTags := by
  induction strays with
  | here => simp
  | branch found _ _ inductionHypothesis =>
      intro label membership
      rcases List.mem_cons.mp membership with rfl | later
      · exact Dispatch.label_mem_unionTags noRecord found
      · exact inductionHypothesis label later

theorem Form.Strays.cause_ne_missing {value : Value} {form : Form} {labels : List String}
    {cause : Cause} (strays : form.Strays value labels cause) : cause ≠ .missing := by
  induction strays with
  | here => exact Dispatch.refusal_ne_missing
  | branch _ _ _ inductionHypothesis => exact inductionHypothesis

/-- Labels that lead nowhere as keys may be put in front of a location. -/
theorem Locates.within {value : Value} {labels : List String} {fault : Fault}
    (tags : ∀ label ∈ labels, label ∈ value.unionTags)
    (leadNowhere : fault.location = [] → ∀ label ∈ labels, value.enter? (.text label) = none)
    (located : Locates value fault) : Locates value (fault.within labels) := by
  induction labels with
  | nil => exact located
  | cons label rest inductionHypothesis =>
      refine .branch (tags label List.mem_cons_self) ?_ ?_
      · intro ended
        apply leadNowhere _ label List.mem_cons_self
        cases rest with
        | nil => exact ended
        | cons next rest => simp [Fault.under] at ended
      · apply inductionHypothesis
        · exact fun other membership => tags other (List.mem_cons_of_mem _ membership)
        · exact fun ended other membership =>
            leadNowhere ended other (List.mem_cons_of_mem _ membership)

/-! ### Objects in unions -/

theorem ModelName.label_ne_rollOptionLabel (name : ModelName) : name.label ≠ rollOptionLabel := by
  revert name
  suffices ∀ name ∈ all, name.label ≠ rollOptionLabel from fun name => this name name.mem_all
  decide +kernel

theorem Form.RegularChoice.branch_of_mapping {dispatch : Dispatch} {branches : List (String × Form)}
    (choice : RegularChoice dispatch branches) {entries : List (Atom × Value)} {label : String}
    {form : Form} (found : dispatch.label? (.mapping entries) = some label)
    (entered : branches.lookup label = some form) :
    label ∈ objectLabels ∧ ∃ name, form = .model name := by
  have membership := lookup_eq_some_mem entered
  have regular := choice.branchRegular _ membership
  cases choice.suited membership with
  | @kind kind _ kinds =>
      obtain rfl := Kind.label_injective (Option.some.inj found)
      refine ⟨List.mem_cons_self, ?_⟩
      cases form with
      | model name => exact ⟨name, rfl⟩
      | dictionary key item => simp [isRegular] at regular
      | choice inner branches => cases (eq_length_of_kindOf? kinds).2
      | _ => simp [kindOf?] at kinds
  | @predicate name predicate =>
      exact ⟨List.mem_cons_of_mem _ (List.mem_append_left _ (List.mem_map_of_mem predicate)),
        name, rfl⟩
  | rollOption =>
      obtain ⟨name, _, named⟩ := Option.map_eq_some_iff.mp found
      exact absurd named name.label_ne_rollOptionLabel
  | @filter _ name filter =>
      exact ⟨List.mem_cons_of_mem _ (List.mem_append_right _ (List.mem_map.mpr ⟨_, filter, rfl⟩)),
        name, rfl⟩
  | length => simp [Dispatch.label?, items?] at found

theorem Form.Settles.of_mapping {entries : List (Atom × Value)} {form inner : Form}
    {labels : List String} (regular : form.isRegular = true)
    (settles : form.Settles (.mapping entries) labels inner) :
    (labels = [] ∧ inner = form) ∨
      ∃ name, inner = .model name ∧ ∀ label ∈ labels, label ∈ objectLabels := by
  cases settles with
  | whole => exact .inl ⟨rfl, rfl⟩
  | branch found entered settles =>
      obtain ⟨labelled, name, rfl⟩ :=
        (regularChoice_iff.mp regular).branch_of_mapping found entered
      cases settles
      exact .inr ⟨name, rfl, by simpa using labelled⟩

theorem Form.Strays.of_mapping {entries : List (Atom × Value)} {form : Form} {labels : List String}
    {cause : Cause} (regular : form.isRegular = true)
    (strays : form.Strays (.mapping entries) labels cause) : labels = [] := by
  cases strays with
  | here => rfl
  | branch found entered strays =>
      obtain ⟨_, name, rfl⟩ := (regularChoice_iff.mp regular).branch_of_mapping found entered
      cases strays

/-! ### Faults of parts -/

theorem mem_faults_finishList {items : List Value} {minLength : Option Nat} {unique : Bool}
    {form : Form} {fault : Fault}
    (reported : fault ∈
      (finishList items minLength unique (items.map fun item => item.check form)).faults) :
    (∃ cause, fault = ⟨[], cause⟩ ∧ cause ≠ .missing) ∨
      ∃ (position : Nat) (item : Value) (inner : Fault), items[position]? = some item ∧
        inner ∈ (item.check form).faults ∧ fault = inner.under (.index position) := by
  rcases finishes_finishList items minLength unique (items.map fun item => item.check form) with
    same | ⟨cause, different, same, _⟩
  · rw [same] at reported
    obtain ⟨position, outcome, inner, found, inside, rfl⟩ := mem_faults_atPositions reported
    rw [List.getElem?_map, Option.map_eq_some_iff] at found
    obtain ⟨item, at_, rfl⟩ := found
    exact .inr ⟨position, item, inner, at_, inside, rfl⟩
  · rw [same, faults_refuse, List.mem_singleton] at reported
    exact .inl ⟨cause, reported, different⟩

theorem locates_finishList {items : List Value} {minLength : Option Nat} {unique : Bool}
    {form : Form} {fault : Fault}
    (each : ∀ item ∈ items, ∀ inner ∈ (item.check form).faults, Locates item inner)
    (reported : fault ∈
      (finishList items minLength unique (items.map fun item => item.check form)).faults) :
    Locates (.list items) fault := by
  rcases mem_faults_finishList reported with
    ⟨cause, rfl, different⟩ | ⟨position, item, inner, found, inside, rfl⟩
  · exact .whole different
  · exact .item found (each item (List.mem_of_getElem? found) inner inside)

/-- A fault of a tuple concerns the tuple as a whole, is one of an item, or is an item that is missing. -/
theorem mem_faults_finishTuple {items : List Value} {positions : List Form} {distinct : Bool}
    {fault : Fault}
    (reported : fault ∈ (finishTuple positions.length items.length distinct
      (checkPositions items positions)).faults) :
    (∃ cause, fault = ⟨[], cause⟩ ∧ cause ≠ .missing) ∨
      (∃ (position : Nat) (item : Value) (form : Form) (inner : Fault),
        items[position]? = some item ∧ form ∈ positions ∧ inner ∈ (item.check form).faults ∧
          fault = inner.under (.index position)) ∨
      ∃ position : Nat, items.length ≤ position ∧ fault = ⟨[.index position], .missing⟩ := by
  by_cases long : positions.length < items.length
  · rw [finishTuple, if_pos long, faults_refuse, List.mem_singleton] at reported
    exact .inl ⟨_, reported, by simp⟩
  · rcases finishes_finishTuple (not_lt.mp long) distinct (checkPositions items positions) with
      same | ⟨cause, different, same, _⟩
    · rw [same] at reported
      obtain ⟨position, outcome, inner, found, inside, rfl⟩ := mem_faults_atPositions reported
      rw [checkPositions_eq, List.getElem?_append] at found
      split at found
      next short =>
          simp only [List.getElem?_map, Option.map_eq_some_iff] at found
          obtain ⟨⟨item, form⟩, at_, rfl⟩ := found
          rw [List.getElem?_zip_eq_some] at at_
          exact .inr (.inl
            ⟨position, item, form, inner, at_.1, List.mem_of_getElem? at_.2, inside, rfl⟩)
      next absent =>
          rw [List.getElem?_map, Option.map_eq_some_iff] at found
          obtain ⟨form, at_, rfl⟩ := found
          rw [faults_refuse, List.mem_singleton] at inside
          obtain ⟨bound, _⟩ := List.getElem?_eq_some_iff.mp at_
          subst inside
          refine .inr (.inr ⟨position, ?_, rfl⟩)
          simp only [List.length_map, List.length_zip, List.length_drop] at absent bound
          omega
    · rw [same, faults_refuse, List.mem_singleton] at reported
      exact .inl ⟨cause, reported, different⟩

theorem locates_finishTuple {items : List Value} {positions : List Form} {distinct : Bool}
    {fault : Fault}
    (each : ∀ item ∈ items, ∀ form ∈ positions, ∀ inner ∈ (item.check form).faults,
      Locates item inner)
    (reported : fault ∈ (finishTuple positions.length items.length distinct
      (checkPositions items positions)).faults) :
    Locates (.list items) fault := by
  rcases mem_faults_finishTuple reported with ⟨cause, rfl, different⟩ |
    ⟨position, item, form, inner, found, inPositions, inside, rfl⟩ | ⟨position, long, rfl⟩
  · exact .whole different
  · exact .item found (each item (List.mem_of_getElem? found) form inPositions inner inside)
  · exact .absentItem long

/-- The faults of an object are located, and a fault of the object as a whole leaves no key unknown. -/
theorem locates_assemble {name : ModelName} {entries : List (Atom × Value)} {fault : Fault}
    (json : (Value.mapping entries).IsJson)
    (each : ∀ entry ∈ entries, ∀ form : Form, form.isRegular = true →
      ∀ inner ∈ (entry.2.check form).faults, Locates entry.2 inner)
    (reported : fault ∈ (name.assemble (entryOutcomes name.definition entries)).faults) :
    Locates (.mapping entries) fault ∧ (fault.location = [] →
      ∀ entry ∈ entries, ∃ fieldName ∈ declaredNames, entry.1 = .text fieldName) := by
  rcases mem_faults_assemble reported with
    ⟨refinement, rfl, noUnknown⟩ | ⟨field, membership, reports⟩ | unknown
  · rw [keys_entryOutcomes] at noUnknown
    refine ⟨.whole (by simp), fun _ entry inEntries => ?_⟩
    obtain ⟨fieldName, known, named⟩ := noUnknown entry.1 (List.mem_map_of_mem inEntries)
    exact ⟨fieldName, ModelName.fieldName_declared known, named⟩
  · have declared := name.fieldName_declared (Definition.mem_fieldNames membership)
    have outcomeOf := lookupText_entryOutcomes membership entries
    cases reports with
    | missing absent =>
        rw [outcomeOf, Option.map_eq_none_iff] at absent
        exact ⟨.absentField declared absent, by simp⟩
    | excluded accepted =>
        rw [outcomeOf, Option.map_eq_some_iff] at accepted
        obtain ⟨value, looked, _⟩ := accepted
        exact ⟨.given looked (by simp), by simp⟩
    | inside refused inFaults =>
        rw [outcomeOf, Option.map_eq_some_iff] at refused
        obtain ⟨value, looked, equality⟩ := refused
        refine ⟨.field declared looked ?_, by simp [Fault.under]⟩
        refine each _ (lookupText_eq_some_mem looked) field.form
          (name.field_isRegular field membership) _ ?_
        rwa [equality]
  · obtain ⟨key, membership, located, different⟩ := mem_unknownKeys unknown
    rw [keys_entryOutcomes, List.mem_map] at membership
    obtain ⟨entry, inEntries, rfl⟩ := membership
    obtain ⟨keyName, named⟩ := json.key inEntries
    rcases fault with ⟨location, cause⟩
    simp only [named] at located
    subst located
    have looked : lookupText keyName entries = some entry.2 := by
      rw [lookupText_eq_some_iff json.keysDiffer, ← named]
      exact inEntries
    exact ⟨.given looked different, by simp⟩

theorem locates_checkWhole {value : Value} {form : Form} {fault : Fault}
    (reported : fault ∈ (value.checkWhole form).faults) : Locates value fault := by
  obtain ⟨cause, rfl, different⟩ := checkWhole_faults reported
  exact .whole different

theorem locates_of_settled {value : Value} {form : Form} {fault : Fault} (json : value.IsJson)
    (settled : ∀ labels inner, form.Settles value labels inner →
      ∀ inside ∈ (value.checkSettled inner).faults, Locates value inside ∧
        (inside.location = [] → ∀ label ∈ labels, value.enter? (.text label) = none))
    (strayed : ∀ labels cause, form.Strays value labels cause →
      ∀ label ∈ labels, value.enter? (.text label) = none)
    (reported : fault ∈ (value.check form).faults) : Locates value fault := by
  rcases settles_or_strays value form with
    ⟨labels, inner, settles, _⟩ | ⟨labels, cause, strays, _⟩
  · rw [check_of_settles settles, faults_underLabels, List.mem_map] at reported
    obtain ⟨inside, found, rfl⟩ := reported
    obtain ⟨located, nowhere⟩ := settled labels inner settles inside found
    exact located.within (settles.label_mem_unionTags json.isRecord_eq_false) nowhere
  · rw [check_of_strays strays, faults_underLabels, faults_refuse, List.map_singleton,
      List.mem_singleton] at reported
    subst reported
    exact Locates.within (strays.label_mem_unionTags json.isRecord_eq_false)
      (fun _ => strayed labels cause strays) (.whole strays.cause_ne_missing)

def Value.LocatesFaults (value : Value) : Prop :=
  ∀ form : Form, form.isRegular = true → ∀ fault ∈ (value.check form).faults, Locates value fault

theorem locatesFaults_atom {a : Atom} (json : (Value.atom a).IsJson) :
    (Value.atom a).LocatesFaults := by
  intro form regular fault reported
  have nowhere (name : String) : (Value.atom a).enter? (.text name) = none := rfl
  refine locates_of_settled json ?_ (fun _ _ _ label _ => nowhere label) reported
  intro labels inner settles inside found
  refine ⟨?_, fun _ label _ => nowhere label⟩
  cases inner with
  | anyJson => simp [checkSettled, json.checkJson_eq, Outcome.faults] at found
  | _ =>
      simp only [checkSettled] at found
      exact locates_checkWhole found

theorem locatesFaults_list {items : List Value} (json : (Value.list items).IsJson)
    (each : ∀ item ∈ items, item.LocatesFaults) : (Value.list items).LocatesFaults := by
  intro form regular fault reported
  have nowhere (name : String) : (Value.list items).enter? (.text name) = none := rfl
  refine locates_of_settled json ?_ (fun _ _ _ label _ => nowhere label) reported
  intro labels inner settles inside found
  refine ⟨?_, fun _ label _ => nowhere label⟩
  have innerRegular := settles.isRegular regular
  cases inner with
  | list item minLength unique =>
      refine locates_finishList (fun part membership => ?_) found
      exact each part membership item innerRegular
  | tuple positions distinct =>
      simp only [isRegular, Bool.and_eq_true, areRegular_iff] at innerRegular
      refine locates_finishTuple (fun part membership position inPositions => ?_) found
      exact each part membership position (innerRegular.1 position inPositions)
  | anyJson => simp [checkSettled, json.checkJson_eq, Outcome.faults] at found
  | _ =>
      simp only [checkSettled] at found
      exact locates_checkWhole found

/-- A union may lead an object to a model, by a label that is no key of the object. -/
theorem locatesFaults_mapping {entries : List (Atom × Value)} (json : (Value.mapping entries).IsJson)
    (each : ∀ entry ∈ entries, entry.2.LocatesFaults) : (Value.mapping entries).LocatesFaults := by
  intro form regular fault reported
  refine locates_of_settled json ?_ ?_ reported
  · intro labels inner settles inside found
    cases inner with
    | model name =>
        obtain ⟨located, known⟩ := locates_assemble json each found
        refine ⟨located, fun ended label membership => ?_⟩
        rcases settles.of_mapping regular with ⟨rfl, _⟩ | ⟨_, _, labelled⟩
        · simp at membership
        · refine lookupText_eq_none_iff.mpr fun entry inEntries same => ?_
          obtain ⟨fieldName, declared, named⟩ := known ended entry inEntries
          rw [named, Atom.text.injEq] at same
          exact objectLabel_not_declared label (labelled label membership) (same ▸ declared)
    | dictionary key item => simpa [isRegular] using settles.isRegular regular
    | anyJson => simp [checkSettled, json.checkJson_eq, Outcome.faults] at found
    | _ =>
        simp only [checkSettled] at found
        refine ⟨locates_checkWhole found, fun _ label membership => ?_⟩
        rcases settles.of_mapping regular with ⟨rfl, _⟩ | ⟨_, equality, _⟩
        · simp at membership
        · cases equality
  · intro labels cause strays label membership
    simp [strays.of_mapping regular] at membership

/-- Every fault that validation finds in a JSON value lies at a place of it. -/
theorem locates_of_check {value : Value} (json : value.IsJson) : value.LocatesFaults := by
  induction value, json using jsonInduction with
  | atom a json => exact locatesFaults_atom json
  | list items json inductionHypothesis => exact locatesFaults_list json inductionHypothesis
  | mapping entries json inductionHypothesis => exact locatesFaults_mapping json inductionHypothesis

end AnimationGrammar
