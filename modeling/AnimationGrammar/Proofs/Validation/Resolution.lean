import AnimationGrammar.Proofs.Validation.Path

/-!
Paths that resolve.

`retrace` can be given any location, also one that has nothing to do with the value.  `Retraces` says
what a step of the walk may do, without saying when: it is left out, it is taken into a part of the
value, or it is the last one and names a part that is missing.  What the path of a walk has collected
therefore always leads to where the walk stands.
-/

namespace AnimationGrammar

/-- How a location is walked through a value, and which path is collected on the way. -/
inductive Retraces (missing : Bool) : List Atom → Value → Path → Prop
  | done {value} : Retraces missing [] value []
  | leaveOut {step rest value path} : Retraces missing rest value path →
      Retraces missing (step :: rest) value path
  | enter {step rest value part path} : value.enter? step = some part →
      Retraces missing rest part path → Retraces missing (step :: rest) value (step :: path)
  | lack {step value} : missing = true → value.enter? step = none →
      Retraces missing [step] value [step]

theorem retraces (missing : Bool) (location : List Atom) (value : Value) :
    Retraces missing location value (retrace missing location value) := by
  induction location generalizing value with
  | nil => exact .done
  | cons step rest inductionHypothesis =>
      rw [retrace]
      split
      · exact .leaveOut (inductionHypothesis value)
      · split
        next part entered => exact .enter entered (inductionHypothesis part)
        next absent =>
            split
            next named =>
                simp only [Bool.and_eq_true, List.isEmpty_iff] at named
                obtain ⟨⟨rfl, isMissing⟩, _⟩ := named
                exact .lack isMissing absent
            next => exact .leaveOut (inductionHypothesis value)

variable {missing : Bool} {location : List Atom} {value : Value} {path : Path}

theorem Retraces.sublist (walk : Retraces missing location value path) : path.Sublist location := by
  induction walk with
  | done => exact .slnil
  | leaveOut _ inductionHypothesis => exact inductionHypothesis.cons _
  | enter _ _ inductionHypothesis => exact inductionHypothesis.cons_cons _
  | lack => exact .refl _

/-- The path of a walk leads to a part of the value, unless its last step is that of the location and
names a part that is missing where the steps before it lead. -/
theorem Retraces.resolves (walk : Retraces missing location value path) :
    (∃ part, value.follow? path = some part) ∨
      missing = true ∧ ∃ outer last inner, location.getLast? = some last ∧ path = outer ++ [last] ∧
        value.follow? outer = some inner ∧ inner.enter? last = none := by
  induction walk with
  | @done value => exact .inl ⟨value, rfl⟩
  | @leaveOut step rest value path _ inductionHypothesis =>
      refine inductionHypothesis.imp_right ?_
      rintro ⟨isMissing, outer, last, inner, ending, split, reached, absent⟩
      refine ⟨isMissing, outer, last, inner, ?_, split, reached, absent⟩
      simp [List.getLast?_cons, ending]
  | @enter step rest value part path entered _ inductionHypothesis =>
      rcases inductionHypothesis with
        ⟨inner, reached⟩ | ⟨isMissing, outer, last, inner, ending, split, reached, absent⟩
      · exact .inl ⟨inner, by simp [Value.follow?, entered, reached]⟩
      · refine .inr ⟨isMissing, step :: outer, last, inner, ?_, ?_, ?_, absent⟩
        · simp [List.getLast?_cons, ending]
        · rw [split, List.cons_append]
        · simp [Value.follow?, entered, reached]
  | @lack step value isMissing absent =>
      exact .inr ⟨isMissing, [], step, value, rfl, rfl, rfl, absent⟩

/-- Whether every step of a location leads on, and none but the last is the label of a branch. -/
def Value.LeadsOn : List Atom → Value → Prop
  | [], _ => True
  | step :: rest, value =>
      (rest ≠ [] → value.isTag step = false) ∧ ∃ part, value.enter? step = some part ∧ part.LeadsOn rest

/-- A location in which nothing has to be left out is a path already. -/
theorem retrace_eq_self (missing : Bool) {location : List Atom} {value : Value}
    (leads : value.LeadsOn location) : retrace missing location value = location := by
  induction location generalizing value with
  | nil => rfl
  | cons step rest inductionHypothesis =>
      obtain ⟨unlabelled, part, entered, later⟩ := leads
      have kept : (value.isTag step && !rest.isEmpty) = false := by
        cases rest with
        | nil => simp
        | cons next rest => simp [unlabelled]
      rw [retrace, kept, entered]
      simp only [Bool.false_eq_true, if_false, inductionHypothesis later]

/-- The path found from a location is part of the location, and it leads to a part of the value: or, for
a part that is missing, to where the part is missing and then on by the last step of the location.
Nothing is left out of a location that leads on by itself. -/
theorem retrace_resolves_or_lacks (missing : Bool) (location : List Atom) (value : Value) :
    let path := retrace missing location value
    path.Sublist location ∧
      ((∃ part, value.follow? path = some part) ∨
        missing = true ∧ ∃ outer last inner, location.getLast? = some last ∧
          path = outer ++ [last] ∧ value.follow? outer = some inner ∧ inner.enter? last = none) ∧
      (value.LeadsOn location → path = location) :=
  ⟨(retraces missing location value).sublist, (retraces missing location value).resolves,
    retrace_eq_self missing⟩

end AnimationGrammar
