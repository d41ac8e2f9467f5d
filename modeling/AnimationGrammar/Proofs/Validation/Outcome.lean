import AnimationGrammar.Proofs.Validation.Settled

/-!
Outcomes and their faults: what happens to faults on the way from the parts of a value to the whole.
-/

namespace AnimationGrammar

/-- The fault seen from outside of some union branches. -/
def Fault.within (labels : List String) (fault : Fault) : Fault :=
  labels.foldr (fun label => Fault.under (.label label)) fault

@[simp] theorem Fault.within_cause (labels : List String) (fault : Fault) :
    (fault.within labels).cause = fault.cause := by
  induction labels with
  | nil => rfl
  | cons label rest inductionHypothesis => exact inductionHypothesis

namespace Outcome

@[simp] theorem faults_refuse (cause : Cause) : (refuse cause).faults = [⟨[], cause⟩] := rfl

@[simp] theorem faults_under (step : Step) (outcome : Outcome) :
    (under step outcome).faults = outcome.faults.map (Fault.under step) := by
  cases outcome <;> rfl

theorem faults_underLabels (labels : List String) (outcome : Outcome) :
    (underLabels labels outcome).faults = outcome.faults.map (Fault.within labels) := by
  induction labels with
  | nil => exact (List.map_id _).symm
  | cons label rest inductionHypothesis =>
      rw [underLabels, faults_under, inductionHypothesis, List.map_map]
      rfl

@[simp] theorem under_eq_ok_iff {step : Step} {outcome : Outcome} {value : Value} :
    under step outcome = .ok value ↔ outcome = .ok value := by
  cases outcome <;> simp [under]

@[simp] theorem underLabels_eq_ok_iff {labels : List String} {outcome : Outcome} {value : Value} :
    underLabels labels outcome = .ok value ↔ outcome = .ok value := by
  induction labels with
  | nil => rfl
  | cons label rest inductionHypothesis => rw [underLabels, under_eq_ok_iff, inductionHypothesis]

theorem refuse_ne_ok {cause : Cause} {value : Value} : refuse cause ≠ .ok value := by
  simp [refuse]

theorem collect_eq_ok_iff {outcomes : List Outcome} {values : List Value} :
    collect outcomes = .ok values ↔ outcomes = values.map .ok := by
  induction outcomes generalizing values with
  | nil => cases values <;> simp [collect]
  | cons outcome rest inductionHypothesis =>
      cases outcome with
      | error faults =>
          have refused : collect (.error faults :: rest) ≠ .ok values := by
            rw [collect]
            split <;> simp
          cases values <;> simp [refused]
      | ok value =>
          rw [collect]
          cases tail : collect rest with
          | error faults =>
              have different : ∀ later : List Value, rest ≠ later.map .ok := by
                intro later equality
                simp [inductionHypothesis.mpr equality] at tail
              cases values <;> simp [Except.map, different]
          | ok collected =>
              rw [inductionHypothesis] at tail
              subst tail
              cases values with
              | nil => simp [Except.map]
              | cons head values =>
                  simp only [Except.map, Except.ok.injEq, List.cons.injEq, List.map_cons]
                  constructor
                  · rintro ⟨rfl, rfl⟩
                    exact ⟨rfl, rfl⟩
                  · rintro ⟨same, rest⟩
                    have injective : Function.Injective (Except.ok : Value → Outcome) :=
                      fun _ _ => Except.ok.inj
                    exact ⟨same, List.map_injective_iff.mpr injective rest⟩

theorem collect_eq_error {outcomes : List Outcome} {faults : List Fault}
    (refused : collect outcomes = .error faults) : faults = outcomes.flatMap Outcome.faults := by
  induction outcomes generalizing faults with
  | nil => simp [collect] at refused
  | cons outcome rest inductionHypothesis =>
      rw [List.flatMap_cons]
      cases outcome with
      | ok value =>
          rw [collect] at refused
          cases tail : collect rest with
          | ok collected => simp [tail, Except.map] at refused
          | error later =>
              simp only [tail, Except.map, Except.error.injEq] at refused
              subst refused
              simpa [Outcome.faults] using inductionHypothesis tail
      | error own =>
          rw [collect] at refused
          cases tail : collect rest with
          | error later =>
              simp only [tail, Except.error.injEq] at refused
              rw [← refused, inductionHypothesis tail]
              rfl
          | ok collected =>
              simp only [tail, Except.error.injEq] at refused
              rw [collect_eq_ok_iff.mp tail, ← refused]
              simp [Outcome.faults, List.flatMap_map]

theorem atPositions_eq (position : Nat) (outcomes : List Outcome) :
    atPositions position outcomes =
      (outcomes.zipIdx position).map fun part => under (.index part.2) part.1 := by
  induction outcomes generalizing position with
  | nil => rfl
  | cons outcome rest inductionHypothesis => simp [atPositions, inductionHypothesis]

theorem collect_atPositions_eq_ok_iff {outcomes : List Outcome} {values : List Value} :
    collect (atPositions 0 outcomes) = .ok values ↔ outcomes = values.map .ok := by
  rw [collect_eq_ok_iff]
  generalize 0 = position
  induction outcomes generalizing position values with
  | nil => simp [atPositions, eq_comm]
  | cons outcome rest inductionHypothesis =>
      cases values with
      | nil => simp [atPositions]
      | cons value values => simp [atPositions, inductionHypothesis]

theorem mem_faults_atPositions {outcomes : List Outcome} {fault : Fault}
    (reported : fault ∈ (atPositions 0 outcomes).flatMap Outcome.faults) :
    ∃ (position : Nat) (outcome : Outcome) (inner : Fault),
      outcomes[position]? = some outcome ∧ inner ∈ outcome.faults ∧
        fault = inner.under (.index position) := by
  rw [atPositions_eq, List.flatMap_map, List.mem_flatMap] at reported
  obtain ⟨⟨outcome, position⟩, membership, inOutcome⟩ := reported
  rw [List.mem_zipIdx_iff_getElem?] at membership
  rw [faults_under, List.mem_map] at inOutcome
  obtain ⟨inner, inside, equality⟩ := inOutcome
  exact ⟨position, outcome, inner, membership, inside, equality.symm⟩

theorem faults_of_collect_ok {outcomes : List Outcome} {values : List Value}
    (accepted : collect outcomes = .ok values) : outcomes.flatMap Outcome.faults = [] := by
  rw [collect_eq_ok_iff.mp accepted, List.flatMap_map, List.flatMap_eq_nil_iff]
  exact fun _ _ => rfl

/-- Whether an outcome has the faults of some items, or one of its own where no item has any. -/
def Finishes (outcomes : List Outcome) (outcome : Outcome) : Prop :=
  outcome.faults = (atPositions 0 outcomes).flatMap Outcome.faults ∨
    ∃ cause, cause ≠ .missing ∧ outcome = refuse cause ∧
      (atPositions 0 outcomes).flatMap Outcome.faults = []

theorem finishes_finishList (raw : List Value) (minLength : Option Nat) (unique : Bool)
    (outcomes : List Outcome) : Finishes outcomes (finishList raw minLength unique outcomes) := by
  rw [finishList]
  split
  next faults refused => exact .inl (collect_eq_error refused)
  next items accepted =>
      have none := faults_of_collect_ok accepted
      simp only
      split
      · exact .inr ⟨_, by simp, rfl, none⟩
      · split
        · exact .inr ⟨_, by simp, rfl, none⟩
        · exact .inl none.symm

theorem finishes_finishTuple {size actual : Nat} (fits : actual ≤ size) (distinct : Bool)
    (outcomes : List Outcome) : Finishes outcomes (finishTuple size actual distinct outcomes) := by
  rw [finishTuple, if_neg (not_lt.mpr fits)]
  split
  next faults refused => exact .inl (collect_eq_error refused)
  next items accepted =>
      have none := faults_of_collect_ok accepted
      split
      · exact .inr ⟨_, by simp, rfl, none⟩
      · exact .inl none.symm

end Outcome

end AnimationGrammar
