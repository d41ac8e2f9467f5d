import AnimationGrammar.Validation.Check
import AnimationGrammar.Proofs.Grammar.Regular

/-!
One step of validation.

`Form.Settles` describes the way through nested unions, and `Value.checkSettled` what is done with a
value once no union is left.  Together they say what `Value.check` does at one place, with the parts of
the value as a list (`Value.check_eq`).
-/

namespace AnimationGrammar

namespace Form

def isChoice : Form → Bool
  | .choice _ _ => true
  | _ => false

theorem choiceInduction {motive : Form → Prop}
    (choice : ∀ dispatch branches, (∀ branch ∈ branches, motive branch.2) →
      motive (.choice dispatch branches))
    (whole : ∀ form, form.isChoice = false → motive form) (form : Form) : motive form := by
  match form with
  | .choice dispatch branches =>
      exact choice dispatch branches fun branch membership =>
        choiceInduction choice whole branch.2
  | .text rule => exact whole _ rfl
  | .number rule => exact whole _ rfl
  | .literal choices => exact whole _ rfl
  | .flag => exact whole _ rfl
  | .anyJson => exact whole _ rfl
  | .tuple positions distinct => exact whole _ rfl
  | .list item minLength unique => exact whole _ rfl
  | .dictionary key item => exact whole _ rfl
  | .model name => exact whole _ rfl
termination_by sizeOf form
decreasing_by
  have smaller := List.sizeOf_lt_of_mem membership
  rcases branch with ⟨label, inner⟩
  simp only [Form.choice.sizeOf_spec, Prod.mk.sizeOf_spec] at smaller ⊢
  omega

/-- A value reaches a form that is no union by entering branches. -/
inductive Settles (value : Value) : Form → List String → Form → Prop
  | whole {form} : form.isChoice = false → Settles value form [] form
  | branch {dispatch branches label form labels inner} :
      dispatch.label? value = some label → branches.lookup label = some form →
      Settles value form labels inner →
      Settles value (.choice dispatch branches) (label :: labels) inner

/-- A value enters branches and then finds none. -/
inductive Strays (value : Value) : Form → List String → Cause → Prop
  | here {dispatch branches} :
      (∀ label, dispatch.label? value = some label → branches.lookup label = none) →
      Strays value (.choice dispatch branches) [] (dispatch.refusal (branches.map Prod.fst) value)
  | branch {dispatch branches label form labels cause} :
      dispatch.label? value = some label → branches.lookup label = some form →
      Strays value form labels cause →
      Strays value (.choice dispatch branches) (label :: labels) cause

theorem settle_whole {form : Form} (whole : form.isChoice = false) (value : Value) :
    form.settle value = ⟨[], .ok form⟩ := by
  cases form <;> first | rfl | simp [isChoice] at whole

theorem settleBranch_eq (value : Value) (label : String) (branches : List (String × Form)) :
    settleBranch value label branches = (branches.lookup label).map fun form =>
      ⟨label :: (form.settle value).labels, (form.settle value).form⟩ := by
  induction branches with
  | nil => rfl
  | cons branch rest inductionHypothesis =>
      rcases branch with ⟨name, form⟩
      by_cases same : name = label
      · simp [settleBranch, same]
      · have other : (label == name) = false := by simpa using Ne.symm same
        simp [settleBranch, same, List.lookup_cons, other, inductionHypothesis]

theorem settle_choice (dispatch : Dispatch) (branches : List (String × Form)) (value : Value) :
    (Form.choice dispatch branches).settle value =
      match (dispatch.label? value).bind fun label =>
          (branches.lookup label).map (Prod.mk label) with
      | some (label, form) => ⟨label :: (form.settle value).labels, (form.settle value).form⟩
      | none => ⟨[], .error (dispatch.refusal (branches.map Prod.fst) value)⟩ := by
  rw [settle]
  cases found : dispatch.label? value with
  | none => rfl
  | some label =>
      simp only [settleBranch_eq, Option.bind_some]
      cases branches.lookup label <;> rfl

theorem settles_or_strays (value : Value) (form : Form) :
    (∃ labels inner, Settles value form labels inner ∧ form.settle value = ⟨labels, .ok inner⟩) ∨
      ∃ labels cause, Strays value form labels cause ∧
        form.settle value = ⟨labels, .error cause⟩ := by
  induction form using choiceInduction with
  | whole form whole => exact .inl ⟨[], form, .whole whole, settle_whole whole value⟩
  | choice dispatch branches inductionHypothesis =>
      rw [settle_choice]
      cases found : dispatch.label? value with
      | none => exact .inr ⟨_, _, .here (by simp [found]), rfl⟩
      | some label =>
          cases entered : branches.lookup label with
          | none =>
              refine .inr ⟨_, _, .here ?_, by simp [entered]⟩
              intro other same
              rw [found, Option.some.injEq] at same
              exact same ▸ entered
          | some form =>
              have membership : (label, form) ∈ branches := lookup_eq_some_mem entered
              simp only [Option.bind_some, entered, Option.map_some]
              rcases inductionHypothesis _ membership with
                ⟨labels, inner, settles, equality⟩ | ⟨labels, cause, strays, equality⟩
              · exact .inl ⟨_, _, .branch found entered settles, by rw [equality]⟩
              · exact .inr ⟨_, _, .branch found entered strays, by rw [equality]⟩

theorem Settles.settle_eq {value : Value} {form inner : Form} {labels : List String}
    (settles : Settles value form labels inner) : form.settle value = ⟨labels, .ok inner⟩ := by
  induction settles with
  | whole whole => exact settle_whole whole value
  | branch found entered _ inductionHypothesis =>
      simp [settle_choice, found, entered, inductionHypothesis]

theorem Strays.settle_eq {value : Value} {form : Form} {labels : List String} {cause : Cause}
    (strays : Strays value form labels cause) : form.settle value = ⟨labels, .error cause⟩ := by
  induction strays with
  | @here dispatch branches none =>
      rw [settle_choice]
      cases found : dispatch.label? value with
      | none => rfl
      | some label => simp [none label found]
  | branch found entered _ inductionHypothesis =>
      simp [settle_choice, found, entered, inductionHypothesis]

theorem Settles.isRegular {value : Value} {form inner : Form} {labels : List String}
    (settles : Settles value form labels inner) (regular : form.isRegular = true) :
    inner.isRegular = true := by
  induction settles with
  | whole => exact regular
  | branch _ entered _ inductionHypothesis =>
      have choice := regularChoice_iff.mp regular
      exact inductionHypothesis (choice.branchRegular _ (lookup_eq_some_mem entered))

theorem Settles.isWhole {value : Value} {form inner : Form} {labels : List String}
    (settles : Settles value form labels inner) : inner.isChoice = false := by
  induction settles with
  | whole whole => exact whole
  | branch _ _ _ inductionHypothesis => exact inductionHypothesis

end Form

/-! ### What is done with a value once no union is left -/

namespace Value

open Outcome

/-- The outcomes of a list against the forms of its positions; a position without an item is missing. -/
theorem checkPositions_eq (items : List Value) (positions : List Form) :
    checkPositions items positions =
      (items.zip positions).map (fun part => part.1.check part.2) ++
        (positions.drop items.length).map fun _ => refuse .missing := by
  induction items generalizing positions with
  | nil => simp [checkPositions]
  | cons item rest inductionHypothesis =>
      cases positions with
      | nil => simp [checkPositions]
      | cons form positions => simp [checkPositions, inductionHypothesis]

theorem checkEach_eq (items : List Value) (form : Form) :
    checkEach items form = items.map fun item => item.check form := by
  induction items with
  | nil => rfl
  | cons item rest inductionHypothesis => simp [checkEach, inductionHypothesis]

/-- The outcomes of the entries whose keys a model knows. -/
def entryOutcomes (definition : Definition) (entries : List (Atom × Value)) :
    List (Atom × Option Outcome) :=
  entries.map fun entry => (entry.1, (definition.formOf? entry.1).map entry.2.check)

theorem checkEntries_eq (entries : List (Atom × Value)) (definition : Definition) :
    checkEntries entries definition = entryOutcomes definition entries := by
  induction entries with
  | nil => rfl
  | cons entry rest inductionHypothesis =>
      rcases entry with ⟨key, value⟩
      simp only [checkEntries, inductionHypothesis, entryOutcomes, List.map_cons]
      cases definition.formOf? key <;> rfl

theorem checkValues_eq (entries : List (Atom × Value)) (form : Form) :
    checkValues entries form = entries.map fun entry => (entry.1, entry.2.check form) := by
  induction entries with
  | nil => rfl
  | cons entry rest inductionHypothesis =>
      rcases entry with ⟨key, value⟩
      simp [checkValues, inductionHypothesis]

/-- Validate a value against a form that is no union. -/
def checkSettled (value : Value) (form : Form) : Outcome :=
  match value, form with
  | .list items, .list item minLength unique =>
      finishList items minLength unique (items.map fun part => part.check item)
  | .list items, .tuple positions distinct =>
      finishTuple positions.length items.length distinct (checkPositions items positions)
  | .tuple items, .list item minLength unique =>
      finishList items minLength unique (items.map fun part => part.check item)
  | .tuple items, .tuple positions distinct =>
      finishTuple positions.length items.length distinct (checkPositions items positions)
  | .mapping entries, .model name => name.assemble (entryOutcomes name.definition entries)
  | .mapping entries, .dictionary key item =>
      (finishDictionary key (entries.map fun entry => (entry.1, entry.2.check item))).map .mapping
  | value, .anyJson => value.checkJson
  | value, form => value.checkWhole form

theorem checkSettled_anyJson (value : Value) : value.checkSettled .anyJson = value.checkJson := by
  cases value <;> rfl

/-- Validation settles the form, and then goes on with the value and the form that is left. -/
theorem check_eq (value : Value) (form : Form) :
    value.check form = form.withSettled value value.checkSettled := by
  cases value with
  | atom a =>
      rw [check]
      congr 1
      funext inner
      cases inner <;> rfl
  | list items =>
      rw [check]
      congr 1
      funext inner
      cases inner <;> simp [checkSettled, checkEach_eq]
  | tuple items =>
      rw [check]
      congr 1
      funext inner
      cases inner <;> simp [checkSettled, checkEach_eq]
  | mapping entries =>
      rw [check]
      congr 1
      funext inner
      cases inner <;> simp [checkSettled, checkEntries_eq, checkValues_eq]
  | record model fields =>
      rw [check]
      congr 1
      funext inner
      cases inner <;> rfl

theorem check_choice {value : Value} {form : Form} {dispatch : Dispatch}
    {branches : List (String × Form)} {label : String} (found : dispatch.label? value = some label)
    (entered : branches.lookup label = some form) :
    value.check (.choice dispatch branches) = under (.label label) (value.check form) := by
  rw [check_eq, check_eq, Form.withSettled, Form.withSettled, Form.settle_choice, found,
    Option.bind_some, entered]
  rfl

theorem check_of_settles {value : Value} {form inner : Form} {labels : List String}
    (settles : form.Settles value labels inner) :
    value.check form = underLabels labels (value.checkSettled inner) := by
  rw [check_eq, Form.withSettled, settles.settle_eq]

/-- What is asked of a value that is no longer a choice is asked of it as it stands. -/
theorem check_whole {form : Form} (whole : form.isChoice = false) (value : Value) :
    value.check form = value.checkSettled form :=
  check_of_settles (.whole whole)

theorem check_model (entries : List (Atom × Value)) (name : ModelName) :
    (Value.mapping entries).check (.model name) =
      name.assemble (entryOutcomes name.definition entries) :=
  check_whole rfl _

theorem check_of_strays {value : Value} {form : Form} {labels : List String} {cause : Cause}
    (strays : form.Strays value labels cause) :
    value.check form = underLabels labels (refuse cause) := by
  rw [check_eq, Form.withSettled, strays.settle_eq]

end Value

end AnimationGrammar
