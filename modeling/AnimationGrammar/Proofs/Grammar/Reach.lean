import AnimationGrammar.Proofs.Grammar.Admission

/-!
Which forms are reached from a form.

The leaves of a form are the forms in it that have no parts of their own, models among them.  A property
of leaves that models hand on to their fields holds at every place that is visited.
-/

namespace AnimationGrammar

open Value

namespace Form

mutual

/-- The forms without parts that a form is put together from. -/
def leaves : Form → List Form
  | .tuple positions _ => positionLeaves positions
  | .list item _ _ => item.leaves
  | .dictionary _ item => item.leaves
  | .choice _ branches => branchLeaves branches
  | form => [form]

def positionLeaves : List Form → List Form
  | [] => []
  | form :: rest => form.leaves ++ positionLeaves rest

def branchLeaves : List (String × Form) → List Form
  | [] => []
  | (_, form) :: rest => form.leaves ++ branchLeaves rest

end

theorem leaves_model (name : ModelName) : (Form.model name).leaves = [.model name] := rfl

theorem leaves_position {positions : List Form} {form leaf : Form} (inPositions : form ∈ positions)
    (isLeaf : leaf ∈ form.leaves) : leaf ∈ positionLeaves positions := by
  induction positions with
  | nil => simp at inPositions
  | cons first rest inductionHypothesis =>
      rw [positionLeaves, List.mem_append]
      rcases List.mem_cons.mp inPositions with rfl | inRest
      · exact .inl isLeaf
      · exact .inr (inductionHypothesis inRest)

theorem leaves_branch {branches : List (String × Form)} {branch : String × Form} {leaf : Form}
    (inBranches : branch ∈ branches) (isLeaf : leaf ∈ branch.2.leaves) :
    leaf ∈ branchLeaves branches := by
  induction branches with
  | nil => simp at inBranches
  | cons first rest inductionHypothesis =>
      rcases first with ⟨label, form⟩
      rw [branchLeaves, List.mem_append]
      rcases List.mem_cons.mp inBranches with rfl | inRest
      · exact .inl isLeaf
      · exact .inr (inductionHypothesis inRest)

/-- Whether a form is without parts, apart from those of a model. -/
def isLeaf : Form → Bool
  | .tuple _ _ => false
  | .list _ _ _ => false
  | .dictionary _ _ => false
  | .choice _ _ => false
  | _ => true

/-- The leaves of a part are leaves of the form, or stand under a field of a model. -/
theorem leaves_part {form : Form} {value : Value} {part : Form × Value}
    (membership : part ∈ form.parts value) :
    (form.isLeaf = false ∧ form.isChoice = false ∧ ∀ leaf ∈ part.1.leaves, leaf ∈ form.leaves) ∨
      ∃ name entries, form = .model name ∧ value = .mapping entries ∧
        ∃ field ∈ name.definition.fields, part.1 = field.form ∧
          (Atom.text field.name, part.2) ∈ entries := by
  obtain ⟨inner, place⟩ := part
  cases mem_parts_iff.mp membership with
  | position inZip =>
      exact .inl ⟨rfl, rfl, fun leaf => leaves_position (List.of_mem_zip inZip).1⟩
  | item => exact .inl ⟨rfl, rfl, fun leaf isLeaf => isLeaf⟩
  | entry => exact .inl ⟨rfl, rfl, fun leaf isLeaf => isLeaf⟩
  | @field name entries field _ inFields given =>
      exact .inr ⟨name, entries, rfl, rfl, field, inFields, rfl, given⟩

/-- Whether a form is regular, or that of an object whose values all have one regular form. -/
def isUniform : Form → Bool
  | .dictionary _ item => item.isRegular
  | form => form.isRegular

theorem isUniform_of_isRegular {form : Form} (regular : form.isRegular = true) :
    form.isUniform = true := by
  cases form with
  | dictionary key item => simp [isRegular] at regular
  | _ => exact regular

theorem isUniform_of_mem_parts {form : Form} {value : Value} {part : Form × Value}
    (uniform : form.isUniform = true) (membership : part ∈ form.parts value) :
    part.1.isUniform = true := by
  apply isUniform_of_isRegular
  obtain ⟨inner, place⟩ := part
  cases mem_parts_iff.mp membership with
  | entry => exact uniform
  | _ => exact isRegular_of_mem_parts uniform membership

end Form

namespace Visits

variable {form inner : Form} {value place : Value}

theorem isUniform (visits : Visits form value inner place) (uniform : form.isUniform = true) :
    inner.isUniform = true := by
  induction visits with
  | here => exact uniform
  | branch _ entered _ inductionHypothesis =>
      apply inductionHypothesis
      apply Form.isUniform_of_isRegular
      exact (Form.regularChoice_iff.mp uniform).branchRegular _ (lookup_eq_some_mem entered)
  | part membership _ inductionHypothesis =>
      exact inductionHypothesis (Form.isUniform_of_mem_parts uniform membership)

/-- A property of leaves that models hand on holds of the leaves at every place. -/
theorem leaves (property : Form → Prop)
    (handedOn : ∀ name : ModelName, property (.model name) → ∀ field ∈ name.definition.fields,
      ∀ leaf ∈ field.form.leaves, property leaf)
    (visits : Visits form value inner place) (start : ∀ leaf ∈ form.leaves, property leaf) :
    ∀ leaf ∈ inner.leaves, property leaf := by
  induction visits with
  | here => exact start
  | branch _ entered _ inductionHypothesis =>
      apply inductionHypothesis
      intro leaf isLeaf
      exact start leaf (Form.leaves_branch (lookup_eq_some_mem entered) isLeaf)
  | part membership _ inductionHypothesis =>
      apply inductionHypothesis
      rcases Form.leaves_part membership with
        ⟨_, _, within⟩ | ⟨name, _, rfl, _, field, inFields, same, _⟩
      · exact fun leaf isLeaf => start leaf (within leaf isLeaf)
      · rw [same]
        exact handedOn name (start _ List.mem_cons_self) field inFields

end Visits

/-! ### Token images -/

def tokenImageModels : List ModelName :=
  [.tokenImages, .tokenImageEntry, .tokenImageRule, .tokenImageAnimation, .tokenRing, .ringSubject,
    .ringColors]

/-- Whether token images make use of a leaf: they have no flags, and no models but their own. -/
def Form.servesTokenImages : Form → Bool
  | .flag => false
  | .model name => name ∈ tokenImageModels
  | _ => true

theorem tokenImageModels_closed : ∀ name ∈ tokenImageModels, ∀ field ∈ name.definition.fields,
    (field.form.leaves.all Form.servesTokenImages) = true := by
  decide +kernel

theorem Visits.servesTokenImages {inner : Form} {value place : Value}
    (visits : Visits (.model .tokenImages) value inner place) :
    ∀ leaf ∈ inner.leaves, leaf.servesTokenImages = true := by
  apply visits.leaves (fun leaf => leaf.servesTokenImages = true)
  · intro name serves field inFields
    rw [Form.servesTokenImages, decide_eq_true_eq] at serves
    exact List.all_eq_true.mp (tokenImageModels_closed name serves field inFields)
  · intro leaf isLeaf
    rw [Form.leaves_model, List.mem_singleton] at isLeaf
    rw [isLeaf]
    rfl

/-! ### Repetition -/

def repeatsKey : String := "repeats"

def Form.isRepetition : Form → Bool
  | .model name => name = .repeatOptions
  | _ => false

namespace Form

def lacksRepetition (form : Form) : Bool := form.leaves.all fun leaf => !leaf.isRepetition

theorem lacksRepetition_iff {form : Form} :
    form.lacksRepetition = true ↔ ∀ leaf ∈ form.leaves, leaf.isRepetition = false := by
  simp [lacksRepetition]

/-- Whether repetition does not occur in a form, or only as the form itself or a branch of it. -/
def repeatsWhole : Form → Bool
  | .choice _ branches => branches.all fun branch => branch.2.isLeaf || branch.2.lacksRepetition
  | form => form.isLeaf || form.lacksRepetition

theorem repeatsWhole_of_lacksRepetition {form : Form} (lacks : form.lacksRepetition = true) :
    form.repeatsWhole = true := by
  cases form with
  | choice dispatch branches =>
      rw [repeatsWhole, List.all_eq_true]
      intro branch inBranches
      rw [Bool.or_eq_true]
      right
      rw [lacksRepetition_iff] at lacks ⊢
      exact fun leaf isLeaf => lacks leaf (leaves_branch inBranches isLeaf)
  | _ => simp [repeatsWhole, lacks]

theorem repeatsWhole_branch {dispatch : Dispatch} {branches : List (String × Form)}
    (whole : (Form.choice dispatch branches).repeatsWhole = true) {branch : String × Form}
    (inBranches : branch ∈ branches) : branch.2.repeatsWhole = true := by
  rw [repeatsWhole, List.all_eq_true] at whole
  have entered := whole branch inBranches
  rw [Bool.or_eq_true] at entered
  rcases entered with isLeaf | lacks
  · rcases branch with ⟨label, form⟩
    cases form with
    | choice dispatch branches => simp [Form.isLeaf] at isLeaf
    | _ => simp [repeatsWhole, isLeaf]
  · exact repeatsWhole_of_lacksRepetition lacks

theorem lacksRepetition_of_repeatsWhole {form : Form} (whole : form.repeatsWhole = true)
    (inner : form.isLeaf = false) (notChoice : form.isChoice = false) :
    form.lacksRepetition = true := by
  cases form with
  | choice dispatch branches => simp [isChoice] at notChoice
  | _ => simpa [repeatsWhole, inner] using whole

end Form

theorem ModelName.field_repeatsWhole (name : ModelName) : ∀ field ∈ name.definition.fields,
    field.form.repeatsWhole = true ∧
      (field.name = repeatsKey ∨ field.form.lacksRepetition = true) := by
  revert name
  suffices ∀ name ∈ all, ∀ field ∈ name.definition.fields, field.form.repeatsWhole = true ∧
      (field.name = repeatsKey ∨ field.form.lacksRepetition = true) from
    fun name => this name name.mem_all
  decide +kernel

/-- Repetition is found under its key, unless it is the value itself. -/
theorem Visits.repetition {form inner : Form} {value place : Value}
    (visits : Visits form value inner place) (repeats : inner = .model .repeatOptions)
    (whole : form.repeatsWhole = true) :
    (∃ entries, (Value.mapping entries).IsPartOf value ∧ (Atom.text repeatsKey, place) ∈ entries) ∨
      place = value ∧ form.lacksRepetition = false := by
  induction visits with
  | here =>
      rw [repeats]
      exact .inr ⟨rfl, rfl⟩
  | branch _ entered _ inductionHypothesis =>
      have inBranches := lookup_eq_some_mem entered
      rcases inductionHypothesis repeats (Form.repeatsWhole_branch whole inBranches) with
        under | ⟨same, found⟩
      · exact .inl under
      · refine .inr ⟨same, ?_⟩
        by_contra lacks
        rw [Bool.not_eq_false, Form.lacksRepetition_iff] at lacks
        rw [← Bool.not_eq_true, Form.lacksRepetition_iff] at found
        exact found fun leaf isLeaf => lacks leaf (Form.leaves_branch inBranches isLeaf)
  | @part form value part inner place membership _ inductionHypothesis =>
      have inside := Form.isPartOf_of_mem_parts membership
      left
      have lacking (lacks : part.1.lacksRepetition = true) :
          ∃ entries, (Value.mapping entries).IsPartOf value ∧
            (Atom.text repeatsKey, place) ∈ entries := by
        rcases inductionHypothesis repeats (Form.repeatsWhole_of_lacksRepetition lacks) with
          ⟨entries, found, given⟩ | ⟨_, found⟩
        · exact ⟨entries, found.trans inside, given⟩
        · rw [lacks] at found
          simp at found
      rcases Form.leaves_part membership with
        ⟨inner, notChoice, within⟩ | ⟨name, entries, rfl, rfl, field, inFields, same, given⟩
      · have lacks := Form.lacksRepetition_of_repeatsWhole whole inner notChoice
        apply lacking
        rw [Form.lacksRepetition_iff] at lacks ⊢
        exact fun leaf isLeaf => lacks leaf (within leaf isLeaf)
      · obtain ⟨fieldWhole, named | lacks⟩ := name.field_repeatsWhole field inFields
        · rcases inductionHypothesis repeats (same ▸ fieldWhole) with
            ⟨entries, found, given⟩ | ⟨place, _⟩
          · exact ⟨entries, found.trans inside, given⟩
          · rw [named] at given
            exact ⟨entries, .self, place ▸ given⟩
        · exact lacking (same ▸ lacks)

end AnimationGrammar
