import AnimationGrammar.Proofs.Validation.Blocks
import AnimationGrammar.Proofs.Validation.Passing
import AnimationGrammar.Proofs.Validation.Path

/-!
Errors stay where they are.

When a value changes at one position, the faults that validation finds at other places stay as they
were.  A fault may come or go only on the way to the position or beyond it: the faults of a whole wait
for those of its parts, so what is reported at the values around the position depends on what stands
there.  Two things look further.  The text under `type` picks the branch for the keys beside it, and
`blurX` and `blurY` exclude a key beside them, so the position must not end in one of these keys.
-/

namespace AnimationGrammar

open Outcome Value Form

/-! ### Positions -/

/-- Two values that are alike but for what stands at one position. -/
inductive DiffersAt : Path → Value → Value → Prop
  | here {first second} : DiffersAt [] first second
  | item {position first second before after} : DiffersAt position first second →
      DiffersAt (.number (.integer (List.length before)) :: position)
        (.list (before ++ first :: after)) (.list (before ++ second :: after))
  | entry {position first second name before after} : DiffersAt position first second →
      DiffersAt (.text name :: position)
        (.mapping (before ++ (.text name, first) :: after))
        (.mapping (before ++ (.text name, second) :: after))

/-- Whether a path lies on the way to a position or leads on from it. -/
def IsAlong (position path : Path) : Prop := path <+: position ∨ position <+: path

instance (position path : Path) : Decidable (IsAlong position path) :=
  inferInstanceAs (Decidable (_ ∨ _))

@[simp] theorem isAlong_nil (position : Path) : IsAlong position [] := .inl (List.nil_prefix)

@[simp] theorem isAlong_of_nil (path : Path) : IsAlong [] path := .inr (List.nil_prefix)

@[simp] theorem isAlong_cons (step : Atom) (position path : Path) :
    IsAlong (step :: position) (step :: path) ↔ IsAlong position path := by
  simp [IsAlong, List.cons_prefix_cons]

/-- The keys whose values decide what is asked of the keys beside them. -/
def guidingKeys : List String := ["type", "blurX", "blurY"]

def EndsInGuidingKey (position : Path) : Prop :=
  ∃ name ∈ guidingKeys, position.getLast? = some (.text name)

def Value.IsComposite (value : Value) : Prop := ∀ a, value ≠ .atom a

theorem DiffersAt.isComposite {step : Atom} {position : Path} {first second : Value}
    (differ : DiffersAt (step :: position) first second) :
    first.IsComposite ∧ second.IsComposite := by
  cases differ <;> simp [IsComposite]

/-- The faults that lie neither on the way to a position nor beyond it. -/
def asideOf (position : Path) (faults : List Fault) : List Fault :=
  faults.filter fun fault => ¬ IsAlong position fault.place

section
variable {position : Path}

@[simp] theorem asideOf_nil : asideOf position [] = [] := rfl

@[simp] theorem asideOf_append (faults others : List Fault) :
    asideOf position (faults ++ others) = asideOf position faults ++ asideOf position others :=
  List.filter_append faults others

@[simp] theorem asideOf_of_nil (faults : List Fault) : asideOf [] faults = [] := by
  simp [asideOf]

@[simp] theorem asideOf_refuse (cause : Cause) : asideOf position (refuse cause).faults = [] := by
  simp [asideOf, Fault.place]

theorem asideOf_under {outer : Path} {step : Step}
    (along : ∀ fault : Fault, IsAlong outer (fault.under step).place ↔ IsAlong position fault.place)
    (faults : List Fault) :
    asideOf outer (faults.map (Fault.under step)) = (asideOf position faults).map (.under step) := by
  rw [asideOf, asideOf, List.filter_map]
  congr 1
  refine List.filter_congr fun fault _ => ?_
  rw [Function.comp_apply, decide_eq_decide, along]

theorem asideOf_label (label : String) (faults : List Fault) :
    asideOf position (faults.map (Fault.under (.label label))) =
      (asideOf position faults).map (.under (.label label)) :=
  asideOf_under (fun _ => Iff.rfl) faults

theorem asideOf_index (index : Nat) (faults : List Fault) :
    asideOf (.number (.integer index) :: position) (faults.map (Fault.under (.index index))) =
      (asideOf position faults).map (.under (.index index)) :=
  asideOf_under (fun fault => by simp) faults

theorem asideOf_key (name : String) (faults : List Fault) :
    asideOf (.text name :: position) (faults.map (Fault.under (.key (.text name)))) =
      (asideOf position faults).map (.under (.key (.text name))) :=
  asideOf_under (fun fault => by simp) faults

theorem asideOf_checkWhole (value : Value) (form : Form) :
    asideOf position (value.checkWhole form).faults = [] := by
  rw [asideOf, List.filter_eq_nil_iff]
  intro fault reported
  obtain ⟨cause, rfl, _⟩ := checkWhole_faults reported
  simp [Fault.place]

end

/-! ### Unions -/

theorem operatorModel?_congr {xs ys : List (Atom × Value)}
    (sameKeys : xs.map Prod.fst = ys.map Prod.fst) : operatorModel? xs = operatorModel? ys := by
  induction xs generalizing ys with
  | nil => rw [List.map_eq_nil_iff.mp sameKeys.symm]
  | cons entry rest inductionHypothesis =>
      obtain ⟨other, others, rfl, same, later⟩ := List.map_eq_cons_iff.mp sameKeys.symm
      rcases entry with ⟨key, value⟩
      rcases other with ⟨otherKey, otherValue⟩
      simp only at same
      subst same
      cases otherKey <;> simp only [operatorModel?, inductionHypothesis later.symm]

section
variable {name : String} {first second : Value} {before after : List (Atom × Value)}

theorem lookupText_beside {other : String} (apart : other ≠ name) :
    lookupText other (before ++ (.text name, first) :: after) =
      lookupText other (before ++ (.text name, second) :: after) := by
  simp [lookupText_append, lookupText, apart.symm]

theorem lookupText_changed
    (json : (Value.mapping (before ++ (.text name, first) :: after)).IsJson) :
    lookupText name (before ++ (.text name, first) :: after) = some first :=
  (lookupText_eq_some_iff json.keysDiffer).mpr (by simp)

/-- An object enters the same branch of every union, unless its type has changed. -/
theorem Dispatch.label?_of_entry (dispatch : Dispatch)
    (firstJson : (Value.mapping (before ++ (.text name, first) :: after)).IsJson)
    (secondJson : (Value.mapping (before ++ (.text name, second) :: after)).IsJson)
    (untyped : name = "type" → first.IsComposite ∧ second.IsComposite) :
    dispatch.label? (.mapping (before ++ (.text name, first) :: after)) =
      dispatch.label? (.mapping (before ++ (.text name, second) :: after)) := by
  cases dispatch with
  | kind => rfl
  | operator =>
      have same : operatorModel? (before ++ (.text name, first) :: after) =
          operatorModel? (before ++ (.text name, second) :: after) :=
        operatorModel?_congr (by simp)
      simp only [label?, predicateLabel?, same]
  | type =>
      by_cases typed : name = "type"
      · subst typed
        obtain ⟨firstParts, secondParts⟩ := untyped rfl
        simp only [label?, get?, lookupText_changed firstJson, lookupText_changed secondJson]
        cases first <;> cases second <;> simp_all [IsComposite]
      · simp only [label?, get?]
        rw [lookupText_beside (Ne.symm typed)]
  | length => rfl

end

/-- Whether two values have the same faults aside of a position, for every form. -/
def Value.AgreesAside (position : Path) (first second : Value) : Prop :=
  ∀ form : Form, form.isRegular = true →
    asideOf position (first.check form).faults = asideOf position (second.check form).faults

/-- Two values that enter the same branches agree when they do once no union is left. -/
theorem Value.agreesAside_of_settled {position : Path} {first second : Value}
    (labels : ∀ dispatch : Dispatch, dispatch.label? first = dispatch.label? second)
    (settled : ∀ form : Form, form.isChoice = false → form.isRegular = true →
      asideOf position (first.checkSettled form).faults =
        asideOf position (second.checkSettled form).faults) :
    AgreesAside position first second := by
  intro form regular
  induction form using choiceInduction with
  | choice dispatch branches inductionHypothesis =>
      by_cases enters : ∃ label form, dispatch.label? first = some label ∧
          branches.lookup label = some form
      · obtain ⟨label, form, found, entered⟩ := enters
        have membership := lookup_eq_some_mem entered
        rw [check_choice found entered, check_choice (labels dispatch ▸ found) entered, faults_under,
          faults_under, asideOf_label, asideOf_label, inductionHypothesis _ membership
            ((regularChoice_iff.mp regular).branchRegular _ membership)]
      · push Not at enters
        have strays (value : Value) (same : dispatch.label? first = dispatch.label? value) :
            (Form.choice dispatch branches).Strays value []
              (dispatch.refusal (branches.map Prod.fst) value) := by
          refine .here fun label found => Option.eq_none_iff_forall_ne_some.mpr fun form => ?_
          exact enters label form (same.trans found)
        rw [check_of_strays (strays first rfl), check_of_strays (strays second (labels dispatch)),
          underLabels, underLabels, asideOf_refuse, asideOf_refuse]
  | whole form whole =>
      rw [check_whole whole, check_whole whole]
      exact settled form whole regular

/-! ### Lists -/

section
variable {position : Path}

theorem asideOf_of_finishes {outcomes : List Outcome} {outcome : Outcome}
    (finishes : Finishes outcomes outcome) : asideOf position outcome.faults =
      asideOf position ((atPositions 0 outcomes).flatMap Outcome.faults) := by
  rcases finishes with same | ⟨cause, _, rfl, none⟩
  · rw [same]
  · rw [none, asideOf_refuse, asideOf_nil]

theorem asideOf_atPositions (before after : List Outcome) {first second : Outcome}
    (agree : asideOf position first.faults = asideOf position second.faults) :
    asideOf (.number (.integer before.length) :: position)
        ((atPositions 0 (before ++ first :: after)).flatMap Outcome.faults) =
      asideOf (.number (.integer before.length) :: position)
        ((atPositions 0 (before ++ second :: after)).flatMap Outcome.faults) := by
  simp only [atPositions_eq, List.zipIdx_append, List.zipIdx_cons, List.map_append, List.map_cons,
    List.flatMap_append, List.flatMap_cons, Nat.zero_add, asideOf_append, faults_under,
    asideOf_index, agree]

theorem checkPositions_split (before after : List Value) (positions : List Form) :
    (∃ outcomes, ∀ item, checkPositions (before ++ item :: after) positions = outcomes) ∨
      ∃ form ∈ positions, ∃ earlier later, earlier.length = before.length ∧
        ∀ item, checkPositions (before ++ item :: after) positions =
          earlier ++ item.check form :: later := by
  induction before generalizing positions with
  | nil =>
      cases positions with
      | nil => exact .inl ⟨[], fun _ => rfl⟩
      | cons form rest =>
          exact .inr ⟨form, List.mem_cons_self, [], checkPositions after rest, rfl, fun _ => rfl⟩
  | cons head before inductionHypothesis =>
      cases positions with
      | nil => exact .inl ⟨[], fun _ => rfl⟩
      | cons form rest =>
          rcases inductionHypothesis rest with
            ⟨outcomes, same⟩ | ⟨found, membership, earlier, later, length, same⟩
          · refine .inl ⟨head.check form :: outcomes, fun item => ?_⟩
            rw [List.cons_append, checkPositions, same]
          · refine .inr ⟨found, List.mem_cons_of_mem _ membership, head.check form :: earlier, later,
              congrArg Nat.succ length, fun item => ?_⟩
            rw [List.cons_append, checkPositions, same, List.cons_append]

/-- Where an item changes, the faults of the other items stay. -/
theorem asideOf_item {before after : List Value} {first second : Value}
    (firstJson : (Value.list (before ++ first :: after)).IsJson)
    (secondJson : (Value.list (before ++ second :: after)).IsJson)
    (agree : AgreesAside position first second)
    {form : Form} (whole : form.isChoice = false) (regular : form.isRegular = true) :
    asideOf (.number (.integer before.length) :: position)
        ((Value.list (before ++ first :: after)).checkSettled form).faults =
      asideOf (.number (.integer before.length) :: position)
        ((Value.list (before ++ second :: after)).checkSettled form).faults := by
  cases form with
  | list item minLength unique =>
      have changed := asideOf_atPositions (before.map fun part => part.check item)
        (after.map fun part => part.check item) (agree item regular)
      rw [List.length_map] at changed
      simp only [checkSettled]
      rw [asideOf_of_finishes (finishes_finishList _ _ _ _),
        asideOf_of_finishes (finishes_finishList _ _ _ _), List.map_append, List.map_append,
        List.map_cons, List.map_cons, changed]
  | tuple positions distinct =>
      simp only [checkSettled, List.length_append, List.length_cons]
      by_cases long : positions.length < before.length + (after.length + 1)
      · rw [finishTuple, if_pos long, finishTuple, if_pos long]
      · have fits := not_lt.mp long
        rw [asideOf_of_finishes (finishes_finishTuple fits _ _),
          asideOf_of_finishes (finishes_finishTuple fits _ _)]
        rcases checkPositions_split before after positions with
          ⟨outcomes, same⟩ | ⟨form, membership, earlier, later, length, same⟩
        · rw [same, same]
        · simp only [isRegular, Bool.and_eq_true, areRegular_iff] at regular
          rw [same, same, ← length, asideOf_atPositions _ _ (agree form (regular.1 form membership))]
  | anyJson => simp only [checkSettled, firstJson.checkJson_eq, secondJson.checkJson_eq]; rfl
  | choice dispatch branches => simp [isChoice] at whole
  | _ => simp only [checkSettled, asideOf_checkWhole]

end

/-! ### Objects -/

theorem excludes_guiding {name : ModelName} {field : Field}
    (membership : field ∈ name.definition.fields) : ∀ other ∈ field.excludes, other ∈ guidingKeys := by
  revert field name
  suffices ∀ name ∈ ModelName.all, ∀ field ∈ name.definition.fields,
      ∀ other ∈ field.excludes, other ∈ guidingKeys from
    fun {name} field => this name name.mem_all field
  decide +kernel

theorem guidingField_isAtomic {name : ModelName} {field : Field}
    (membership : field ∈ name.definition.fields) (guiding : field.name ∈ guidingKeys) :
    field.form.isAtomic = true := by
  revert field name
  suffices ∀ name ∈ ModelName.all, ∀ field ∈ name.definition.fields,
      field.name ∈ guidingKeys → field.form.isAtomic = true from
    fun {name} field => this name name.mem_all field
  decide +kernel

theorem not_passes_of_atomic {form : Form} (atomic : form.isAtomic = true) {value : Value}
    (parts : value.IsComposite) : ¬ value.Passes form := by
  rintro ⟨result, accepted⟩
  rw [check_atomic atomic, checkWhole_eq_ok_iff] at accepted
  cases accepted with
  | anyJson | record => simp [isAtomic] at atomic
  | text passed =>
      obtain ⟨a, rfl⟩ := TextRule.exists_atom_of_read passed
      exact parts a rfl
  | _ => exact parts _ rfl

theorem taken?_of_atomic {form : Form} (atomic : form.isAtomic = true) {value : Value}
    (parts : value.IsComposite) (excluded : Bool) :
    Field.taken? excluded (some (value.check form)) = none := by
  cases outcome : value.check form with
  | ok result => exact absurd ⟨result, outcome⟩ (not_passes_of_atomic atomic parts)
  | error faults => rfl

/-- Two outcomes of a field that make no difference aside of a position. -/
structure Field.AgreesAside (position : Path) (field : Field) (first second : Option Outcome) :
    Prop where
  faults : ∀ excluded, asideOf position (field.faults excluded first) =
    asideOf position (field.faults excluded second)
  taken : field.name ∈ guidingKeys → ∀ excluded,
    (Field.taken? excluded first).isSome = (Field.taken? excluded second).isSome

structure Gathered.AgreesAside (position : Path) (first second : Gathered) : Prop where
  faults : asideOf position first.faults = asideOf position second.faults
  found : ∀ name ∈ guidingKeys,
    (first.fields.lookup name).isSome = (second.fields.lookup name).isSome

section
variable {position : Path} {first second : Gathered} {checked others : List (Atom × Option Outcome)}

theorem Gathered.AgreesAside.add {field : Field} (agrees : first.AgreesAside position second)
    (excludes : ∀ other ∈ field.excludes, other ∈ guidingKeys)
    (outcomes : field.AgreesAside position (lookupText field.name checked).join
      (lookupText field.name others).join) :
    (first.add checked field).AgreesAside position (second.add others field) := by
  have excluded : field.isExcluded first.fields = field.isExcluded second.fields := by
    rw [Field.isExcluded, Field.isExcluded, Bool.eq_iff_iff, List.any_eq_true, List.any_eq_true]
    refine exists_congr fun other => and_congr_right fun membership => ?_
    rw [agrees.found other (excludes other membership)]
  rw [Gathered.add_eq, Gathered.add_eq]
  refine ⟨?_, fun name guiding => ?_⟩
  · rw [asideOf_append, asideOf_append, agrees.faults, excluded, outcomes.faults]
  · rw [List.lookup_append, List.lookup_append, Option.isSome_or, Option.isSome_or,
      agrees.found name guiding, excluded]
    by_cases same : name = field.name
    · have taken := outcomes.taken (same ▸ guiding) (field.isExcluded second.fields)
      congr 1
      revert taken
      cases Field.taken? (field.isExcluded second.fields) (lookupText field.name checked).join <;>
        cases Field.taken? (field.isExcluded second.fields) (lookupText field.name others).join <;>
        simp [same]
    · have absent (taken : Option Value) :
          (taken.map (Prod.mk field.name)).toList.lookup name = none := by
        have different : (name == field.name) = false := by simpa using same
        cases taken <;> simp [List.lookup_cons, different]
      rw [absent, absent]

theorem Gathered.AgreesAside.foldl {fields : List Field} (agrees : first.AgreesAside position second)
    (excludes : ∀ field ∈ fields, ∀ other ∈ field.excludes, other ∈ guidingKeys)
    (outcomes : ∀ field ∈ fields, field.AgreesAside position (lookupText field.name checked).join
      (lookupText field.name others).join) :
    (fields.foldl (Gathered.add checked) first).AgreesAside position
      (fields.foldl (Gathered.add others) second) := by
  induction fields generalizing first second with
  | nil => exact agrees
  | cons field rest inductionHypothesis =>
      rw [List.forall_mem_cons] at excludes outcomes
      exact inductionHypothesis (agrees.add excludes.1 outcomes.1) excludes.2 outcomes.2

end

/-- Aside of a position, an object has the faults of its fields and those of unknown keys. -/
theorem asideOf_assemble {position : Path} (name : ModelName)
    (checked : List (Atom × Option Outcome)) :
    asideOf position (name.assemble checked).faults =
      asideOf position (name.definition.fields.foldl (Gathered.add checked) {}).faults ++
        asideOf position (name.definition.unknownKeys (checked.map Prod.fst)) := by
  rw [← asideOf_append]
  simp only [ModelName.assemble]
  split
  next empty =>
      rw [List.isEmpty_iff.mp empty, asideOf_nil]
      split
      · exact asideOf_refuse _
      · rfl
  · rfl

section
variable {position : Path} {name : String} {first second : Value}
  {before after : List (Atom × Value)}

theorem agreesAside_entry
    (firstJson : (Value.mapping (before ++ (.text name, first) :: after)).IsJson)
    (secondJson : (Value.mapping (before ++ (.text name, second) :: after)).IsJson)
    (parts : name ∈ guidingKeys → first.IsComposite ∧ second.IsComposite)
    (agree : AgreesAside position first second)
    {model : ModelName} {field : Field} (membership : field ∈ model.definition.fields) :
    field.AgreesAside (.text name :: position)
      (lookupText field.name (entryOutcomes model.definition
        (before ++ (.text name, first) :: after))).join
      (lookupText field.name (entryOutcomes model.definition
        (before ++ (.text name, second) :: after))).join := by
  rw [lookupText_entryOutcomes membership, lookupText_entryOutcomes membership]
  by_cases same : field.name = name
  · subst same
    rw [lookupText_changed firstJson, lookupText_changed secondJson, Option.map_some,
      Option.map_some]
    have inside (outcome : Outcome) (excluded : Bool) :
        asideOf (.text field.name :: position) (field.faults excluded (some outcome)) =
          (asideOf position outcome.faults).map (.under (.key (.text field.name))) := by
      cases outcome with
      | error faults => exact asideOf_key field.name faults
      | ok value => cases excluded <;> simp [Field.faults, Outcome.faults, asideOf, Fault.place,
          Step.place?, Step.item]
    refine ⟨fun excluded => ?_, fun guiding excluded => ?_⟩
    · rw [inside, inside, agree field.form (model.field_isRegular field membership)]
    · have atomic := guidingField_isAtomic membership guiding
      rw [taken?_of_atomic atomic (parts guiding).1, taken?_of_atomic atomic (parts guiding).2]
  · rw [lookupText_beside same]
    exact ⟨fun _ => rfl, fun _ _ => rfl⟩

/-- Where the value under a key changes, the faults of the other keys stay. -/
theorem asideOf_entry
    (firstJson : (Value.mapping (before ++ (.text name, first) :: after)).IsJson)
    (secondJson : (Value.mapping (before ++ (.text name, second) :: after)).IsJson)
    (parts : name ∈ guidingKeys → first.IsComposite ∧ second.IsComposite)
    (agree : AgreesAside position first second)
    {form : Form} (whole : form.isChoice = false) (regular : form.isRegular = true) :
    asideOf (.text name :: position)
        ((Value.mapping (before ++ (.text name, first) :: after)).checkSettled form).faults =
      asideOf (.text name :: position)
        ((Value.mapping (before ++ (.text name, second) :: after)).checkSettled form).faults := by
  cases form with
  | model model =>
      have start : Gathered.AgreesAside (.text name :: position) {} {} :=
        ⟨rfl, fun _ _ => rfl⟩
      have each (field : Field) (membership : field ∈ model.definition.fields) :=
        agreesAside_entry firstJson secondJson parts agree membership
      have gathered := start.foldl (fun field membership => excludes_guiding membership) each
      simp only [checkSettled, asideOf_assemble, gathered.faults, keys_entryOutcomes, List.map_append,
        List.map_cons]
  | dictionary key item => simp [isRegular] at regular
  | anyJson => simp only [checkSettled, firstJson.checkJson_eq, secondJson.checkJson_eq]; rfl
  | choice dispatch branches => simp [isChoice] at whole
  | _ => simp only [checkSettled, asideOf_checkWhole]

end

/-! ### Whole values -/

theorem EndsInGuidingKey.cons {step : Atom} {position : Path} (ends : EndsInGuidingKey position) :
    EndsInGuidingKey (step :: position) := by
  obtain ⟨name, guiding, last⟩ := ends
  exact ⟨name, guiding, by rw [List.getLast?_cons, last, Option.getD_some]⟩

/-- Values that are alike but for one position have the same faults aside of it. -/
theorem DiffersAt.agreesAside {position : Path} {first second : Value}
    (differ : DiffersAt position first second) (firstJson : first.IsJson)
    (secondJson : second.IsJson) (steady : ¬ EndsInGuidingKey position) :
    AgreesAside position first second := by
  induction differ with
  | here =>
      intro form _
      rw [asideOf_of_nil, asideOf_of_nil]
  | item _ inductionHypothesis =>
      have agree := inductionHypothesis (firstJson.item (by simp)) (secondJson.item (by simp))
        fun ends => steady ends.cons
      refine agreesAside_of_settled (fun dispatch => ?_) fun form whole regular => ?_
      · cases dispatch <;> simp [Dispatch.label?, kind?, predicateLabel?, get?, items?]
      · exact asideOf_item firstJson secondJson agree whole regular
  | @entry position first second name before after differ inductionHypothesis =>
      have inFirst : (Atom.text name, first) ∈ before ++ (.text name, first) :: after := by simp
      have inSecond : (Atom.text name, second) ∈ before ++ (.text name, second) :: after := by simp
      have agree := inductionHypothesis (firstJson.entry inFirst) (secondJson.entry inSecond)
        fun ends => steady ends.cons
      have parts (guiding : name ∈ guidingKeys) : first.IsComposite ∧ second.IsComposite := by
        cases position with
        | nil => exact absurd ⟨name, guiding, rfl⟩ steady
        | cons step rest => exact differ.isComposite
      refine agreesAside_of_settled (fun dispatch => ?_) fun form whole regular => ?_
      · apply dispatch.label?_of_entry firstJson secondJson
        rintro rfl
        exact parts (by decide)
      · exact asideOf_entry firstJson secondJson parts agree whole regular

/-! ### Documents -/

theorem validate_single {key : Atom} {value : Value} (json : value.IsJson)
    (noAlias : ∀ content, value ≠ .text content) (clear : value.HasClearTypes) :
    validate (.mapping [(key, value)]) =
      (if key = .text tokenImagesKey then [] else keyIssues key) ++
        (value.check (valueForm key)).faults.map (Fault.issueAtPlace key) := by
  rw [validate, List.flatMap_singleton, blockIssues]
  by_cases tokens : key = .text tokenImagesKey
  · subst tokens
    rw [if_pos rfl, if_pos rfl, List.nil_append, tokenImageIssues_single,
      issuesAt_eq json clear (valueForm_isRegular _)]
  · rw [if_neg tokens, if_neg tokens, entryIssues_eq tokens json noAlias clear]

/-- The issues whose paths lie neither on the way to a position nor beyond it. -/
def issuesAside (position : Path) (issues : List Issue) : List Issue :=
  issues.filter fun issue => ¬ IsAlong position issue.path

theorem issuesAside_single {key : Atom} {value : Value} (json : value.IsJson)
    (noAlias : ∀ content, value ≠ .text content) (clear : value.HasClearTypes) (position : Path) :
    issuesAside (key :: position) (validate (.mapping [(key, value)])) =
      (asideOf position (value.check (valueForm key)).faults).map (Fault.issueAtPlace key) := by
  have ofKey : issuesAside (key :: position)
      (if key = .text tokenImagesKey then [] else keyIssues key) = [] := by
    rw [issuesAside, List.filter_eq_nil_iff]
    intro issue reported
    split at reported
    · simp at reported
    · simp [keyIssues_path reported]
  have below (fault : Fault) : IsAlong (key :: position) (fault.issueAtPlace key).path ↔
      IsAlong position fault.place := isAlong_cons key position fault.place
  rw [validate_single json noAlias clear, issuesAside, List.filter_append, ← issuesAside, ofKey,
    List.nil_append, List.filter_map, asideOf]
  congr 1
  refine List.filter_congr fun fault _ => ?_
  rw [Function.comp_apply, decide_eq_decide, below]

/-- Between two values that are alike but for one position, only issues on the way to the position or
beyond it come or go; all others stay as they are, in their order. -/
theorem validate_isLocal {position : Path} {first second : Value}
    (differ : DiffersAt position first second) (steady : ¬ EndsInGuidingKey position)
    (firstJson : first.IsJson) (secondJson : second.IsJson)
    (firstNoAlias : ∀ content, first ≠ .text content)
    (secondNoAlias : ∀ content, second ≠ .text content)
    (firstClear : first.HasClearTypes) (secondClear : second.HasClearTypes) (key : Atom) :
    let issues := fun value => validate (.mapping [(key, value)])
    issuesAside (key :: position) (issues first) = issuesAside (key :: position) (issues second) ∧
      ∀ issue, ¬ (issue ∈ issues first ↔ issue ∈ issues second) →
        IsAlong (key :: position) issue.path := by
  intro issues
  have same : issuesAside (key :: position) (issues first) =
      issuesAside (key :: position) (issues second) := by
    simp only [issues]
    rw [issuesAside_single firstJson firstNoAlias firstClear,
      issuesAside_single secondJson secondNoAlias secondClear,
      differ.agreesAside firstJson secondJson steady _ (valueForm_isRegular key)]
  refine ⟨same, fun issue differs => ?_⟩
  by_contra aside
  have kept (value : Value) :
      issue ∈ issuesAside (key :: position) (issues value) ↔ issue ∈ issues value := by
    simp [issuesAside, aside]
  rw [← kept first, ← kept second, same] at differs
  exact differs Iff.rfl

def twoMistakes : Value :=
  .list [.mapping [(.text "default", .integer 5), (.text "file", .integer 7)]]

def oneMistake : Value :=
  .list [.mapping [(.text "default", .boolean true), (.text "file", .integer 7)]]

/-- Putting one mistake right takes its issue away and leaves the other one. -/
theorem validate_oneMistake :
    let position := [Atom.number (.integer 0), .text "default"]
    let issues := fun value => validate (.mapping [(.text "foo", value)])
    issuesAside (.text "foo" :: position) (issues twoMistakes) =
        issuesAside (.text "foo" :: position) (issues oneMistake) ∧
      (issues twoMistakes).map Issue.path =
        [[.text "foo", .number (.integer 0), .text "file"],
          [.text "foo", .number (.integer 0), .text "default"]] ∧
      (issues oneMistake).map Issue.path =
        [[.text "foo", .number (.integer 0), .text "file"]] := by
  intro position issues
  have differ : DiffersAt position twoMistakes oneMistake :=
    @DiffersAt.item _ _ _ [] [] (@DiffersAt.entry _ _ _ _ [] _ .here)
  have steady : ¬ EndsInGuidingKey position := by
    simp [EndsInGuidingKey, guidingKeys, position]
  refine ⟨(validate_isLocal differ steady ?_ ?_ ?_ ?_ ?_ ?_ (.text "foo")).1, ?_, ?_⟩
  · decide +kernel
  · decide +kernel
  · simp [twoMistakes]
  · simp [oneMistake]
  · decide +kernel
  · decide +kernel
  · decide +kernel
  · decide +kernel

end AnimationGrammar
