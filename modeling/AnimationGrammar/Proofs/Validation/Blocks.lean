import AnimationGrammar.Validation.Document
import Mathlib.Data.List.Basic
import Mathlib.Tactic.Common

/-!
Documents key by key.

The issues of a document are those of its keys, one block after the other.  Apart from the token images,
which are validated with the document around them, a block is what its key and value would report in a
document of their own.
-/

namespace AnimationGrammar

variable {ε : Type}

namespace CheckedRun

def issues (run : CheckedRun ε) : List Issue :=
  match run.result with
  | .ok issues => issues
  | .error _ => []

def Ends (run : CheckedRun ε) : Prop := run.result = .ok run.issues

theorem ends_of_result {run : CheckedRun ε} {issues : List Issue} (result : run.result = .ok issues) :
    run.Ends := by
  rw [Ends, CheckedRun.issues, result]

theorem issues_of_result {run : CheckedRun ε} {issues : List Issue} (result : run.result = .ok issues) :
    run.issues = issues := by
  rw [CheckedRun.issues, result]

theorem andThen_result {first second : CheckedRun ε} (firstEnds : first.Ends)
    (secondEnds : second.Ends) :
    (first.andThen second).result = .ok (first.issues ++ second.issues) := by
  rw [Ends] at firstEnds secondEnds
  rw [andThen, firstEnds]
  simp only
  rw [secondEnds]
  rfl

/-- Runs one after another report their issues one after another. -/
theorem foldr_andThen_result {runs : List (CheckedRun ε)} (ends : ∀ run ∈ runs, run.Ends) :
    (runs.foldr andThen (report [])).result = .ok (runs.flatMap issues) := by
  induction runs with
  | nil => rfl
  | cons run rest inductionHypothesis =>
      have restResult := inductionHypothesis fun other membership =>
        ends other (List.mem_cons_of_mem _ membership)
      rw [List.foldr_cons, andThen_result (ends run List.mem_cons_self) (ends_of_result restResult),
        issues_of_result restResult, List.flatMap_cons]

end CheckedRun

open CheckedRun

theorem runChecks_ends {items : List Value} {checks : List (ConsistencyCheck ε)}
    (noneRaises : ∀ check ∈ checks, ∃ issues, check items = .ok issues) (number : Nat) :
    (runChecks items number checks).Ends := by
  induction checks generalizing number with
  | nil => rfl
  | cons check rest inductionHypothesis =>
      obtain ⟨issues, found⟩ := noneRaises check List.mem_cons_self
      have first : CheckedRun.Ends ⟨[(number, items)], check items⟩ := ends_of_result found
      have later := inductionHypothesis
        (fun other membership => noneRaises other (List.mem_cons_of_mem _ membership)) (number + 1)
      exact ends_of_result (andThen_result first later)

theorem issue_below_path (key : Atom) (issue : Issue) :
    (issue.below [key]).path = key :: issue.path := rfl

theorem keyIssues_path {key : Atom} {issue : Issue} (reported : issue ∈ keyIssues key) :
    issue.path = [key] := by
  rw [keyIssues] at reported
  split at reported
  · simp at reported
  · rw [List.mem_singleton.mp reported]

theorem entryIssues_path {key : Atom} {value : Value} {issue : Issue}
    (reported : issue ∈ entryIssues key value) : ∃ rest, issue.path = key :: rest := by
  rw [entryIssues, List.mem_append] at reported
  rcases reported with ofKey | ofValue
  · exact ⟨[], keyIssues_path ofKey⟩
  · rw [valueIssues, issuesAt, List.mem_map] at ofValue
    obtain ⟨fault, _, rfl⟩ := ofValue
    exact ⟨_, issue_below_path key _⟩

section Document

variable {checks : List (ConsistencyCheck ε)} {entries : List (Atom × Value)} {entry : Atom × Value}

/-- Whether no check breaks off on the entries of a key. -/
def NoneRaises (checks : List (ConsistencyCheck ε)) (entry : Atom × Value) : Prop :=
  ∀ items, checkableEntries? entry.2 = some items →
    ∀ check ∈ checks, ∃ issues, check items = .ok issues

theorem runBlock_congr (apart : entry.1 ≠ .text tokenImagesKey) (others : List (Atom × Value)) :
    runBlock checks entries entry = runBlock checks others entry := by
  simp only [runBlock, blockIssues, if_neg apart]

/-- A block holds the issues of its key, and then those that checks report below the key. -/
theorem runBlock_result (noneRaises : NoneRaises checks entry) :
    ∃ found : List Issue, (runBlock checks entries entry).result =
      .ok (blockIssues entries entry ++ found.map (Issue.below [entry.1])) := by
  simp only [runBlock]
  split
  · exact ⟨[], by simp [report]⟩
  · split
    · exact ⟨[], by simp [report]⟩
    next items checkable =>
        have ended := runChecks_ends (noneRaises items checkable) 0
        refine ⟨(runChecks items 0 checks).issues, ?_⟩
        rw [Ends] at ended
        rw [ended]
        exact andThen_result rfl rfl

theorem runBlock_ends (noneRaises : NoneRaises checks entry) :
    (runBlock checks entries entry).Ends := by
  obtain ⟨found, result⟩ := runBlock_result noneRaises
  exact ends_of_result result

theorem runBlock_path (noneRaises : NoneRaises checks entry)
    (apart : entry.1 ≠ .text tokenImagesKey) {issue : Issue}
    (reported : issue ∈ (runBlock checks entries entry).issues) :
    ∃ rest, issue.path = entry.1 :: rest := by
  obtain ⟨found, result⟩ := runBlock_result noneRaises
  rw [issues_of_result result, List.mem_append, blockIssues, if_neg apart] at reported
  rcases reported with own | ofChecks
  · exact entryIssues_path own
  · obtain ⟨inner, _, rfl⟩ := List.mem_map.mp ofChecks
    exact ⟨_, issue_below_path entry.1 inner⟩

/-- A document reports its blocks, one for each key, in the order of the keys. -/
theorem validateWith_result (noneRaises : ∀ entry ∈ entries, NoneRaises checks entry) :
    (validateWith checks (.mapping entries)).result =
      .ok (entries.flatMap fun entry => (runBlock checks entries entry).issues) := by
  rw [validateWith, foldr_andThen_result, List.flatMap_map]
  intro run membership
  obtain ⟨entry, inEntries, rfl⟩ := List.mem_map.mp membership
  exact runBlock_ends (noneRaises entry inEntries)

end Document

/--
A document reports one block for each key, and succeeds when all of them are empty.  Apart from that of
the token images, a block is the report of a document with that key alone, and starts with the key.
-/
theorem validateWith_blocks (checks : List (ConsistencyCheck ε)) (entries : List (Atom × Value))
    (noneRaises : ∀ entry ∈ entries, NoneRaises checks entry) :
    let block := fun entry => (runBlock checks entries entry).issues
    (validateWith checks (.mapping entries)).result = .ok (entries.flatMap block) ∧
      (∀ entry ∈ entries, entry.1 ≠ .text tokenImagesKey →
        (validateWith checks (.mapping [entry])).result = .ok (block entry) ∧
          ∀ issue ∈ block entry, ∃ rest, issue.path = entry.1 :: rest) ∧
      ((validateWith checks (.mapping entries)).result = .ok [] ↔
        ∀ entry ∈ entries, block entry = []) := by
  intro block
  have result := validateWith_result noneRaises
  refine ⟨result, fun entry membership apart => ⟨?_, fun issue reported => ?_⟩, ?_⟩
  · have alone : ∀ other ∈ [entry], NoneRaises checks other := by
      rintro other inAlone
      rw [List.mem_singleton.mp inAlone]
      exact noneRaises entry membership
    rw [validateWith_result alone, List.flatMap_singleton, runBlock_congr apart entries]
  · exact runBlock_path (noneRaises entry membership) apart reported
  · rw [result, Except.ok.injEq, List.flatMap_eq_nil_iff]

/-- A check that never breaks off: it asks for a second entry. -/
def wantsSecondEntry : ConsistencyCheck String := fun items =>
  .ok (if items.length < 2 then [⟨.custom, [.number (.integer 0)], "Add a second entry."⟩] else [])

/-- Only the checkable key is checked, and every block starts with its own key. -/
theorem validateWith_twoKeys :
    let entries := [(Atom.text "bar", Value.integer 5),
      (.text "foo", .list [.mapping [(.text "default", .boolean true)]])]
    (validateWith [wantsSecondEntry] (.mapping entries)).result =
      .ok [⟨.invalidType, [.text "bar"], "Input should be a valid list"⟩,
        ⟨.custom, [.text "foo", .number (.integer 0)], "Add a second entry."⟩] := by
  intro entries
  have noneRaises : ∀ entry ∈ entries, NoneRaises [wantsSecondEntry] entry := by
    intro entry _ items _ check membership
    rw [List.mem_singleton.mp membership]
    exact ⟨_, rfl⟩
  rw [(validateWith_blocks [wantsSecondEntry] entries noneRaises).1]
  decide +kernel

end AnimationGrammar
