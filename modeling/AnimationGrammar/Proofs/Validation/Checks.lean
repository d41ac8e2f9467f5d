import AnimationGrammar.Proofs.Validation.Blocks
import AnimationGrammar.Proofs.Validation.Passing

/-!
The protocol of consistency checks.

Which calls are due can be read off a document: every check, in its order, on the entries of every key
that are in order.  A validation makes the calls that are due and no other, and stops behind the first
that breaks off.  What the checks add follows the issues of the key itself.
-/

namespace AnimationGrammar

variable {ε : Type}

/-! ### Runs that follow a list of calls -/

/-- A call: the number of a check, and the entries that it is shown. -/
abbrev CheckCall := Nat × List Value

/-- A run that is due to make some calls makes them all and reports some issues, unless one of the calls
breaks off: then it stops there. -/
structure CheckedRun.Follows (run : CheckedRun ε) (answer : CheckCall → Except ε (List Issue))
    (due : List CheckCall) (issues : List Issue) : Prop where
  finishes : (∀ call ∈ due, ∃ added, answer call = .ok added) →
    run.calls = due ∧ run.result = .ok issues
  breaksOff : ∀ {before call after failure}, due = before ++ call :: after →
    (∀ earlier ∈ before, ∃ added, answer earlier = .ok added) → answer call = .error failure →
    run.calls = before ++ [call] ∧ run.result = .error failure

def addedBy : Except ε (List Issue) → List Issue
  | .ok added => added
  | .error _ => []

theorem exists_first_failure {answer : CheckCall → Except ε (List Issue)} {due : List CheckCall}
    (broken : ¬ ∀ call ∈ due, ∃ added, answer call = .ok added) :
    ∃ before call after failure, due = before ++ call :: after ∧
      (∀ earlier ∈ before, ∃ added, answer earlier = .ok added) ∧ answer call = .error failure := by
  induction due with
  | nil => simp at broken
  | cons call rest inductionHypothesis =>
      cases answered : answer call with
      | error failure => exact ⟨[], call, rest, failure, rfl, by simp, answered⟩
      | ok added =>
          have later : ¬ ∀ call ∈ rest, ∃ added, answer call = .ok added := fun each =>
            broken (List.forall_mem_cons.mpr ⟨⟨added, answered⟩, each⟩)
          obtain ⟨before, first, after, failure, rfl, ends, failed⟩ := inductionHypothesis later
          exact ⟨call :: before, first, after, failure, rfl,
            List.forall_mem_cons.mpr ⟨⟨added, answered⟩, ends⟩, failed⟩

namespace CheckedRun.Follows

variable {run other : CheckedRun ε} {answer : CheckCall → Except ε (List Issue)}
  {due later : List CheckCall} {issues more : List Issue}

theorem report (issues : List Issue) : (CheckedRun.report issues).Follows answer [] issues where
  finishes _ := ⟨rfl, rfl⟩
  breaksOff split := by simp at split

theorem single {call : CheckCall} :
    CheckedRun.Follows ⟨[call], answer call⟩ answer [call] (addedBy (answer call)) where
  finishes ends := by
    obtain ⟨added, answered⟩ := ends call List.mem_cons_self
    exact ⟨rfl, by rw [answered]; rfl⟩
  breaksOff {before _ _ _} split _ failed := by
    cases before with
    | nil =>
        obtain ⟨rfl, _⟩ := List.cons.inj split
        exact ⟨rfl, failed⟩
    | cons _ _ => simp at split

/-- What is done with the issues of a run has no part in its calls. -/
theorem map (follows : run.Follows answer due issues) (change : List Issue → List Issue) :
    CheckedRun.Follows ⟨run.calls, run.result.map change⟩ answer due (change issues) where
  finishes ends := by
    obtain ⟨calls, result⟩ := follows.finishes ends
    exact ⟨calls, by rw [result]; rfl⟩
  breaksOff split ends failed := by
    obtain ⟨calls, result⟩ := follows.breaksOff split ends failed
    exact ⟨calls, by rw [result]; rfl⟩

/-- When the first of two runs breaks off, the second is not begun. -/
theorem andThen (first : run.Follows answer due issues) (second : other.Follows answer later more) :
    (run.andThen other).Follows answer (due ++ later) (issues ++ more) where
  finishes ends := by
    rw [List.forall_mem_append] at ends
    obtain ⟨calls, result⟩ := first.finishes ends.1
    obtain ⟨laterCalls, laterResult⟩ := second.finishes ends.2
    rw [CheckedRun.andThen, result, calls, laterCalls, laterResult]
    exact ⟨rfl, rfl⟩
  breaksOff {before call after failure} split ends failed := by
    have inSecond {between : List CheckCall} (whole : before = due ++ between)
        (rest : later = between ++ call :: after) :
        (run.andThen other).calls = before ++ [call] ∧
          (run.andThen other).result = .error failure := by
      subst whole
      rw [List.forall_mem_append] at ends
      obtain ⟨calls, result⟩ := first.finishes ends.1
      obtain ⟨laterCalls, laterResult⟩ := second.breaksOff rest ends.2 failed
      rw [CheckedRun.andThen, result, calls, laterCalls, laterResult, List.append_assoc]
      exact ⟨rfl, rfl⟩
    rcases List.append_eq_append_iff.mp split with ⟨between, whole, rest⟩ | ⟨between, whole, rest⟩
    · exact inSecond whole rest
    · cases between with
      | nil =>
          rw [List.append_nil] at whole
          exact @inSecond [] (by rw [whole, List.append_nil]) rest.symm
      | cons _ _ =>
          obtain ⟨rfl, _⟩ := List.cons.inj rest
          obtain ⟨calls, result⟩ := first.breaksOff whole ends failed
          rw [CheckedRun.andThen, result]
          exact ⟨calls, rfl⟩

theorem issues_of_result (follows : run.Follows answer due issues) {found : List Issue}
    (ended : run.result = .ok found) : found = issues := by
  have answered : ∀ call ∈ due, ∃ added, answer call = .ok added := by
    by_contra broken
    obtain ⟨before, call, after, failure, split, ends, failed⟩ := exists_first_failure broken
    rw [(follows.breaksOff split ends failed).2] at ended
    cases ended
  rw [(follows.finishes answered).2] at ended
  exact (Except.ok.inj ended).symm

theorem foldr {α : Type} {runs : α → CheckedRun ε} {due : α → List CheckCall} {issues : α → List Issue}
    {steps : List α} (each : ∀ step ∈ steps, (runs step).Follows answer (due step) (issues step)) :
    ((steps.map runs).foldr CheckedRun.andThen (CheckedRun.report [])).Follows answer
      (steps.flatMap due) (steps.flatMap issues) := by
  induction steps with
  | nil => exact .report []
  | cons step rest inductionHypothesis =>
      obtain ⟨here, later⟩ := List.forall_mem_cons.mp each
      exact here.andThen (inductionHypothesis later)

end CheckedRun.Follows

/-! ### The calls that are due -/

/-- Whether checks look at what stands under a key: neither at token images nor at an alias, but at any
entries that are in order, whether or not the key is. -/
def IsChecked (entry : Atom × Value) : Prop :=
  entry.1 ≠ .text tokenImagesKey ∧ entry.2.kind? ≠ some .string ∧ entry.2.Passes .animationObjects

instance : DecidablePred IsChecked := fun _ => inferInstanceAs (Decidable (_ ∧ _ ∧ _))

def callsOn (items : List Value) (checks : List (ConsistencyCheck ε)) : List CheckCall :=
  (List.range checks.length).map fun number => (number, items)

/-- The calls that are due for one key of a document. -/
def dueCalls (checks : List (ConsistencyCheck ε)) (entry : Atom × Value) : List CheckCall :=
  if IsChecked entry then callsOn (entry.2.items?.getD []) checks else []

/-- What a call is answered by the check of its number. -/
def answer (checks : List (ConsistencyCheck ε)) (call : CheckCall) : Except ε (List Issue) :=
  match checks[call.1]? with
  | some check => check call.2
  | none => .ok []

/-- What the checks add below one key of a document. -/
def addedIssues (checks : List (ConsistencyCheck ε)) (entry : Atom × Value) : List Issue :=
  ((dueCalls checks entry).flatMap fun call => addedBy (answer checks call)).map fun issue =>
    { issue with path := entry.1 :: issue.path }

theorem Value.Passes.items {value : Value} (passes : value.Passes .animationObjects) :
    ∃ items, value.items? = some items := by
  obtain ⟨result, passed⟩ := passes
  rw [check_whole rfl] at passed
  cases value with
  | list items => exact ⟨items, rfl⟩
  | tuple items => exact ⟨items, rfl⟩
  | _ => exact absurd passed Outcome.refuse_ne_ok

theorem Value.kind?_eq_string_iff {value : Value} :
    value.kind? = some .string ↔ ∃ content, value = .text content := by
  cases value with
  | atom a => cases a <;> simp [kind?, atomKind?]
  | _ => simp [kind?]

section
variable {checks : List (ConsistencyCheck ε)} {entries : List (Atom × Value)} {entry : Atom × Value}

theorem checkableEntries?_of_passes (noAlias : entry.2.kind? ≠ some .string)
    (passes : entry.2.Passes .animationObjects) :
    checkableEntries? entry.2 = some (entry.2.items?.getD []) := by
  obtain ⟨items, listed⟩ := passes.items
  obtain ⟨result, passed⟩ := passes
  unfold checkableEntries?
  split
  next same => exact absurd (by rw [same]; rfl) noAlias
  next => rw [passed, listed]; rfl

theorem checkableEntries?_of_not_passes
    (skipped : entry.2.kind? = some .string ∨ ¬ entry.2.Passes .animationObjects) :
    checkableEntries? entry.2 = none := by
  unfold checkableEntries?
  split
  next => rfl
  next noAlias =>
      split
      next result passed =>
          rcases skipped with isText | refused
          · obtain ⟨content, same⟩ := Value.kind?_eq_string_iff.mp isText
            exact absurd same (noAlias content)
          · exact absurd ⟨result, passed⟩ refused
      next => rfl

theorem runChecks_follows {items : List Value} (ask : CheckCall → Except ε (List Issue)) (number : Nat)
    (asked : ∀ position check, checks[position]? = some check →
      ask (number + position, items) = check items) :
    (runChecks items number checks).Follows ask
      ((List.range' number checks.length).map fun number => (number, items))
      ((List.range' number checks.length).flatMap fun number => addedBy (ask (number, items))) := by
  induction checks generalizing number with
  | nil => exact .report []
  | cons check rest inductionHypothesis =>
      have here : ask (number, items) = check items := asked 0 check rfl
      have later := inductionHypothesis (number + 1) fun position check found => by
        rw [Nat.add_right_comm]
        exact asked (position + 1) check found
      rw [List.length_cons, List.range'_succ, List.map_cons, List.flatMap_cons, runChecks, ← here]
      exact CheckedRun.Follows.single.andThen later

/-- A block makes the calls that are due for its key, and no other. -/
theorem runBlock_follows : (runBlock checks entries entry).Follows (answer checks)
    (dueCalls checks entry) (blockIssues entries entry ++ addedIssues checks entry) := by
  unfold runBlock addedIssues dueCalls
  by_cases checked : IsChecked entry
  · obtain ⟨apart, noAlias, passes⟩ := id checked
    rw [if_neg apart, checkableEntries?_of_passes noAlias passes, if_pos checked]
    have asked (position : Nat) (check : ConsistencyCheck ε) (found : checks[position]? = some check) :
        answer checks (0 + position, entry.2.items?.getD []) = check (entry.2.items?.getD []) := by
      rw [Nat.zero_add, answer, found]
    have follows := runChecks_follows (answer checks) 0 asked
    rw [← List.range_eq_range'] at follows
    rw [callsOn, List.flatMap_map]
    exact (CheckedRun.Follows.report _).andThen (follows.map _)
  · rw [if_neg checked]
    have alone : (CheckedRun.report (blockIssues entries entry)).Follows (answer checks) []
        (blockIssues entries entry) := .report _
    rw [List.flatMap_nil, List.map_nil, List.append_nil]
    by_cases tokens : entry.1 = .text tokenImagesKey
    · rwa [if_pos tokens]
    · have skipped : entry.2.kind? = some .string ∨ ¬ entry.2.Passes .animationObjects := by
        rw [IsChecked] at checked
        tauto
      rwa [if_neg tokens, checkableEntries?_of_not_passes skipped]

end

theorem validateWith_follows (checks : List (ConsistencyCheck ε)) (entries : List (Atom × Value)) :
    (validateWith checks (.mapping entries)).Follows (answer checks)
      (entries.flatMap (dueCalls checks))
      (entries.flatMap fun entry => blockIssues entries entry ++ addedIssues checks entry) :=
  .foldr fun _ _ => runBlock_follows

theorem validateWith_nil (document : Value) :
    (validateWith ([] : List (ConsistencyCheck ε)) document).result = .ok (validate document) := by
  cases document with
  | mapping entries =>
      have uncalled : ∀ entry, dueCalls ([] : List (ConsistencyCheck ε)) entry = [] := by
        intro entry
        unfold dueCalls
        split <;> rfl
      have follows := validateWith_follows ([] : List (ConsistencyCheck ε)) entries
      obtain ⟨_, result⟩ := follows.finishes (by simp [uncalled])
      rw [result]
      simp [addedIssues, uncalled, validate]
  | _ => rfl

/--
A validation makes the calls that are due, key by key.  What is added below a key follows the issues of
the key, and without what is added the issues are those of a validation without checks.  When a call
breaks off, so does the validation, and no other call follows.
-/
theorem validateWith_protocol (checks : List (ConsistencyCheck ε)) (entries : List (Atom × Value)) :
    let run := validateWith checks (.mapping entries)
    let unchecked := validateWith ([] : List (ConsistencyCheck ε)) (.mapping entries)
    run.Follows (answer checks) (entries.flatMap (dueCalls checks))
        (entries.flatMap fun entry => blockIssues entries entry ++ addedIssues checks entry) ∧
      unchecked.result = .ok (entries.flatMap (blockIssues entries)) ∧
      (run.result = .ok [] → unchecked.result = .ok []) := by
  intro run unchecked
  have without : unchecked.result = .ok (entries.flatMap (blockIssues entries)) :=
    validateWith_nil (.mapping entries)
  have follows := validateWith_follows checks entries
  refine ⟨follows, without, fun succeeded => ?_⟩
  have nothing := follows.issues_of_result succeeded
  have each := List.flatMap_eq_nil_iff.mp nothing.symm
  rw [without, List.flatMap_eq_nil_iff.mpr fun entry membership =>
    (List.append_eq_nil_iff.mp (each entry membership)).1]

def breaksOffAtSecondEntry : ConsistencyCheck String := fun items =>
  if items.length < 2 then .ok [] else .error "second entry"

/-- Entries are checked under a key that is no roll option, and what is refused is not.  The check that
breaks off is the last that is called. -/
theorem validateWith_protocol_breaksOff :
    let one := [Value.mapping [(.text "default", .boolean true)]]
    let two := one ++ [Value.mapping [(.text "preset", .text "sound")]]
    let entries := [(Atom.text "Not an option", Value.list one), (.text "alias", .text "foo"),
      (.text "refused", .integer 5), (.text "foo", .list two), (.text "bar", .list one)]
    let run := validateWith [wantsSecondEntry, breaksOffAtSecondEntry] (.mapping entries)
    run.calls = [(0, one), (1, one), (0, two), (1, two)] ∧ run.result = .error "second entry" := by
  intro one two entries run
  have oneInOrder : (Value.list one).Passes .animationObjects := by decide +kernel
  have twoInOrder : (Value.list two).Passes .animationObjects := by decide +kernel
  have refused : ¬ (Value.integer 5).Passes .animationObjects := by decide +kernel
  let checks := [wantsSecondEntry, breaksOffAtSecondEntry]
  have due : entries.flatMap (dueCalls checks) =
      [(0, one), (1, one), (0, two)] ++ (1, two) :: dueCalls checks (.text "bar", .list one) := by
    simp [entries, dueCalls, IsChecked, oneInOrder, twoInOrder, refused, tokenImagesKey,
      Value.kind?, Value.atomKind?, Value.items?, callsOn, checks, List.range_succ]
  have answered : ∀ earlier ∈ [(0, one), (1, one), (0, two)],
      ∃ added, answer checks earlier = .ok added := by
    simp [answer, checks, wantsSecondEntry, breaksOffAtSecondEntry, one]
  exact (validateWith_protocol checks entries).1.breaksOff due answered rfl

end AnimationGrammar
