import AnimationGrammar.Validation.Document
import AnimationGrammar.Proofs.Text.FilePath
import AnimationGrammar.Proofs.Text.RollOption
import AnimationGrammar.Proofs.Validation.Gathering

/-!
Which values and documents validation accepts.

A JSON value passes a regular form exactly when the form admits it under the reading of validation, at
any depth of the value.  A document without token images is valid exactly when the form of animations
admits it.
-/

namespace AnimationGrammar

open Outcome

theorem Value.passes_choice_iff {value : Value} {dispatch : Dispatch}
    {branches : List (String × Form)} :
    value.Passes (.choice dispatch branches) ↔ ∃ label form,
      dispatch.label? value = some label ∧ branches.lookup label = some form ∧
        value.Passes form := by
  constructor
  · rintro ⟨result, accepted⟩
    by_cases strays : ∀ label, dispatch.label? value = some label → branches.lookup label = none
    · rw [check_of_strays (.here strays)] at accepted
      exact absurd accepted refuse_ne_ok
    · push Not at strays
      obtain ⟨label, found, entered⟩ := strays
      obtain ⟨form, entered⟩ := Option.ne_none_iff_exists'.mp entered
      rw [check_choice found entered, under_eq_ok_iff] at accepted
      exact ⟨label, form, found, entered, result, accepted⟩
  · rintro ⟨label, form, found, entered, result, accepted⟩
    refine ⟨result, ?_⟩
    rw [check_choice found entered, under_eq_ok_iff, accepted]

theorem Value.passes_whole_iff {value : Value} {form : Form} (whole : form.isChoice = false) :
    value.Passes form ↔ ∃ result, value.checkSettled form = .ok result := by
  rw [Passes, check_whole whole]

theorem Value.Passes.eq_mapping {value : Value} {name : ModelName}
    (passes : value.Passes (.model name)) (noRecord : value.isRecord = false) :
    ∃ entries, value = .mapping entries := by
  obtain ⟨result, accepted⟩ := (passes_whole_iff rfl).mp passes
  cases value with
  | mapping entries => exact ⟨entries, rfl⟩
  | record model fields => simp [isRecord] at noRecord
  | _ => simp [checkSettled, checkWhole, refuse] at accepted

/-- What a JSON value passes at one place. -/
theorem Value.IsJson.passes_step {value : Value} (json : value.IsJson) {form : Form}
    (whole : form.isChoice = false) (regular : form.isRegular = true) :
    value.Passes form ↔
      form.Fits .validation value ∧ ∀ part ∈ form.parts value, part.2.Passes part.1 := by
  cases form with
  | text rule => simpa [Form.parts] using passes_atomic_iff json rfl
  | number rule => simpa [Form.parts] using passes_atomic_iff json rfl
  | literal choices => simpa [Form.parts] using passes_atomic_iff json rfl
  | flag => simpa [Form.parts] using passes_atomic_iff json rfl
  | anyJson =>
      have accepted : value.checkSettled .anyJson = .ok value := by
        rw [checkSettled_anyJson, json.checkJson_eq]
      simp [passes_whole_iff whole, accepted, Form.Fits, Form.parts]
  | tuple positions distinct =>
      rw [passes_whole_iff whole]
      cases value, json using jsonCases with
      | list items json =>
          have fits : (Form.tuple positions distinct).Fits .validation (.list items) ↔
              items.length = positions.length ∧
                (distinct = true → Reading.validation.distinct items) := by
            simp [Form.Fits]
          rw [fits]
          exact tuple_passes_iff regular
      | atom | mapping => simp [checkSettled, checkWhole, refuse, Form.Fits]
  | list item minLength unique =>
      rw [passes_whole_iff whole]
      cases value, json using jsonCases with
      | list items json =>
          have fits : (Form.list item minLength unique).Fits .validation (.list items) ↔
              minLength.getD 0 ≤ items.length ∧ (unique = true → repetition? items = none) := by
            simp [Form.Fits, Reading.validation]
          rw [fits, Form.parts, List.forall_mem_map, and_comm]
          exact finishList_passes_iff
      | atom | mapping => simp [checkSettled, checkWhole, refuse, Form.Fits]
  | dictionary key item => simp [Form.isRegular] at regular
  | choice dispatch branches => simp [Form.isChoice] at whole
  | model name =>
      rw [passes_whole_iff whole]
      cases value, json using jsonCases with
      | mapping entries json =>
          have fits : (Form.model name).Fits .validation (.mapping entries) ↔
              name.definition.Fits .validation entries := by
            simp [Form.Fits]
          rw [fits]
          exact assemble_passes_iff json
      | atom | list => simp [checkSettled, checkWhole, refuse, Form.Fits]

theorem Value.IsJson.passes_iff {value : Value} (json : value.IsJson) (form : Form)
    (regular : form.isRegular = true) : value.Passes form ↔ Admits .validation form value := by
  refine formInduction (motive := fun value form => value.Passes form ↔
    Admits .validation form value) ?_ ?_ json form regular
  · intro value json dispatch branches regularChoice inductionHypothesis
    rw [passes_choice_iff, admits_choice_iff]
    refine exists_congr fun label => exists_congr fun form => and_congr_right fun _ =>
      and_congr_right fun entered => ?_
    exact inductionHypothesis _ (lookup_eq_some_mem entered)
  · intro value json form whole regular inductionHypothesis
    rw [json.passes_step whole regular, admits_whole_iff whole]
    exact and_congr_right fun _ => forall₂_congr inductionHypothesis

/-! ### Documents -/

theorem Outcome.GivesReason.faults_eq_nil_iff {outcome : Outcome} (reason : outcome.GivesReason) :
    outcome.faults = [] ↔ ∃ result, outcome = .ok result := by
  cases outcome with
  | ok value => simp [Outcome.faults]
  | error faults => simpa [Outcome.faults, GivesReason] using reason

theorem passes_ofFormat_iff {content : String} {format : TextFormat} :
    (Value.text content).Passes (.ofFormat format) ↔ format.accepts content = true := by
  rw [Form.ofFormat, Value.passes_atomic_iff (Value.isJson_text content) rfl, Form.Fits]
  simp [TextRule.Accepts]

theorem keyIssues_eq_nil_iff {name : String} :
    keyIssues (.text name) = [] ↔ TextFormat.rollOption.accepts name = true := by
  rw [← passes_ofFormat_iff, ← Form.rollOption, keyIssues, Value.Passes]
  cases (Value.text name).check .rollOption <;> simp

theorem entryForm_isRegular (value : Value) : (entryForm value).isRegular = true := by
  unfold entryForm
  split <;> rfl

theorem Value.IsJson.issuesAt_eq_nil_iff {value : Value} (json : value.IsJson) {form : Form}
    (regular : form.isRegular = true) (path : List Atom) :
    issuesAt path value (value.check form).faults = [] ↔ Admits .validation form value := by
  rw [issuesAt, List.map_eq_nil_iff, (value.givesReason _ regular).faults_eq_nil_iff,
    ← json.passes_iff _ regular]
  rfl

/-- What is asked of a key of a document: under the key for token images, that the document takes them,
and under another key that it is a roll option and that its value is in order. -/
def IsBlockInOrder (document : Value) (name : String) (value : Value) : Prop :=
  if name = tokenImagesKey then Admits .validation (.model .tokenImages) document
  else TextFormat.rollOption.accepts name = true ∧ Admits .validation (entryForm value) value

theorem blockIssues_eq_nil_iff {entries : List (Atom × Value)}
    (json : (Value.mapping entries).IsJson) {name : String} {value : Value}
    (membership : (Atom.text name, value) ∈ entries) :
    blockIssues entries (.text name, value) = [] ↔ IsBlockInOrder (.mapping entries) name value := by
  by_cases tokens : name = tokenImagesKey
  · rw [blockIssues, if_pos (congrArg Atom.text tokens), IsBlockInOrder, if_pos tokens]
    exact json.issuesAt_eq_nil_iff rfl []
  · rw [blockIssues, if_neg (mt Atom.text.inj tokens), IsBlockInOrder, if_neg tokens, entryIssues,
      List.append_eq_nil_iff, keyIssues_eq_nil_iff, valueIssues,
      (json.entry membership).issuesAt_eq_nil_iff (entryForm_isRegular value)]

/-- A JSON document is valid when it is an object all of whose keys are in order. -/
theorem Value.IsJson.valid_iff {document : Value} (json : document.IsJson) :
    validate document = [] ↔ ∃ entries, document = .mapping entries ∧
      ∀ name value, lookupText name entries = some value → IsBlockInOrder document name value := by
  cases document with
  | mapping entries =>
      rw [validate, List.flatMap_eq_nil_iff]
      constructor
      · intro each
        refine ⟨entries, rfl, fun name value given => ?_⟩
        have membership := lookupText_eq_some_mem given
        exact (blockIssues_eq_nil_iff json membership).mp (each _ membership)
      · rintro ⟨others, same, each⟩ ⟨key, value⟩ membership
        cases same
        obtain ⟨name, rfl⟩ := json.key membership
        exact (blockIssues_eq_nil_iff json membership).mpr
          (each name value ((lookupText_eq_some_iff json.keysDiffer).mpr membership))
  | _ => simp [validate]

def Form.block : Form := .byKind [(.string, .rollOption), (.array, .animationObjects)]

theorem Form.animations_eq : Form.animations = .dictionary (.format .rollOption) .block := rfl

theorem admits_block_iff {reading : Reading} {value : Value} :
    Admits reading .block value ↔ Admits reading (entryForm value) value := by
  have entriesOnly (admits : Admits reading .animationObjects value) : value.kind? = some .array := by
    obtain ⟨⟨items, rfl, _⟩, _⟩ := (admits_whole_iff rfl).mp admits
    rfl
  rw [Form.block, admits_byKind_iff (by decide)]
  simp only [List.exists_mem_cons_iff, List.not_mem_nil, false_and, exists_false, or_false]
  unfold entryForm
  split
  · simp [Value.kind?, Value.atomKind?]
  next noText =>
      have noString : value.kind? ≠ some .string := by
        cases value with
        | atom a => cases a <;> simp_all [Value.kind?, Value.atomKind?]
        | _ => simp [Value.kind?]
      simp only [noString, false_and, false_or]
      exact and_iff_right_of_imp entriesOnly

/-- A document without token images is valid exactly when the form of animations admits it. -/
theorem validate_eq_nil_iff {document : Value} (json : document.IsJson)
    (noTokens : document.get? tokenImagesKey = none) :
    validate document = [] ↔ Admits .validation .animations document := by
  rw [json.valid_iff, Form.animations_eq, admits_whole_iff rfl]
  constructor
  · rintro ⟨entries, rfl, each⟩
    have inOrder (entry : Atom × Value) (membership : entry ∈ entries) :
        (∃ content, entry.1 = .text content ∧ TextFormat.rollOption.accepts content = true) ∧
          Admits .validation .block entry.2 := by
      rcases entry with ⟨key, value⟩
      obtain ⟨name, rfl⟩ := json.key membership
      have given := (lookupText_eq_some_iff json.keysDiffer).mpr membership
      have here := each name value given
      rw [IsBlockInOrder, if_neg] at here
      · exact ⟨⟨name, rfl, here.1⟩, admits_block_iff.mpr here.2⟩
      · rintro rfl
        simp [Value.get?, given] at noTokens
    rw [Form.parts, List.forall_mem_map]
    exact ⟨⟨entries, rfl, fun entry membership => (inOrder entry membership).1⟩,
      fun entry membership => (inOrder entry membership).2⟩
  · rintro ⟨⟨entries, rfl, keys⟩, values⟩
    refine ⟨entries, rfl, fun name value given => ?_⟩
    have membership := lookupText_eq_some_mem given
    rw [Form.parts, List.forall_mem_map] at values
    obtain ⟨content, same, accepted⟩ := keys _ membership
    rw [IsBlockInOrder, if_neg]
    · rw [Atom.text.inj same]
      exact ⟨accepted, admits_block_iff.mp (values _ membership)⟩
    · rintro rfl
      simp [Value.get?, given] at noTokens

/-! ### Roll options and file paths -/

theorem passes_rollOption_iff (text : String) :
    (Value.text text).Passes .rollOption ↔ IsRollOption (text.toList.splitOn ':') := by
  rw [Form.rollOption, passes_ofFormat_iff, rollOption_accepts_iff]

theorem passes_filePath_iff (text : String) :
    (Value.text text).Passes .filePath ↔ IsFilePath (text.toList.splitOn '/') := by
  rw [Form.filePath, passes_ofFormat_iff, filePath_accepts_iff]

end AnimationGrammar
