import AnimationGrammar.Proofs.Validation.Blocks
import AnimationGrammar.Proofs.Validation.Path

/-!
Token images beside other keys.

The token images are validated with the document around them, but their model knows no other key, so
what else the document holds has no part in which faults are found.  The paths of the issues are another
matter: they are looked for in the whole document, and a document whose own type names the token images
takes their key for the label of a branch.
-/

namespace AnimationGrammar

open Value Form

variable {ε : Type} {checks : List (ConsistencyCheck ε)} {entries : List (Atom × Value)} {value : Value}

theorem runBlock_tokenImages :
    (runBlock checks entries (.text tokenImagesKey, value)).issues = tokenImageIssues entries := by
  simp [runBlock, blockIssues, CheckedRun.report, CheckedRun.issues]

theorem validateWith_tokenImages_alone :
    (validateWith checks (.mapping [(.text tokenImagesKey, value)])).issues =
      issuesAt [.text tokenImagesKey] value
        (value.check (valueForm (.text tokenImagesKey))).faults := by
  rw [← tokenImageIssues_single]
  simp [validateWith, runBlock, blockIssues, CheckedRun.andThen, CheckedRun.report,
    CheckedRun.issues, Except.map]

/-- An issue lies at the token images themselves when the location of its fault is empty. -/
theorem issue_at_tokenImages_iff {fault : Fault}
    (reported : fault ∈ (value.check (valueForm (.text tokenImagesKey))).faults) :
    ((fault.issue value).below [.text tokenImagesKey]).path = [.text tokenImagesKey] ↔
      fault.location = [] := by
  rw [issue_below_path, List.cons.injEq, and_iff_right rfl]
  constructor
  · intro ended
    rcases list_fault_location reported with here | ⟨position, rest, part, inside, found⟩
    · exact here
    · simp [Fault.issue, Fault.items, inside, Step.item, retrace, isTag, found] at ended
  · intro here
    simp [Fault.issue, Fault.items, here, retrace]

/-- The issues of the token images are those of a document with their key alone, and all start with the
key, unless the type of the document names the key and an issue lies further inside. -/
theorem tokenImages_isolated_iff (checks : List (ConsistencyCheck ε))
    (given : lookupText tokenImagesKey entries = some value) :
    let block := (runBlock checks entries (.text tokenImagesKey, value)).issues
    let alone := (validateWith checks (.mapping [(.text tokenImagesKey, value)])).issues
    (block = alone ∧ ∀ issue ∈ block, ∃ rest, issue.path = .text tokenImagesKey :: rest) ↔
      (lookupText "type" entries = some (.text tokenImagesKey) →
        ∀ issue ∈ alone, issue.path = [.text tokenImagesKey]) := by
  intro block alone
  have isolated : block = alone ↔ (lookupText "type" entries = some (.text tokenImagesKey) →
      ∀ issue ∈ alone, issue.path = [.text tokenImagesKey]) := by
    simp only [block, alone]
    rw [runBlock_tokenImages, validateWith_tokenImages_alone, tokenImageIssues_eq_iff given, issuesAt,
      List.forall_mem_map]
    exact imp_congr_right fun _ => forall₂_congr fun fault reported =>
      (issue_at_tokenImages_iff reported).symm
  rw [← isolated, and_iff_left_iff_imp]
  intro same issue reported
  rw [same] at reported
  simp only [alone, validateWith_tokenImages_alone, issuesAt] at reported
  obtain ⟨fault, _, rfl⟩ := List.mem_map.mp reported
  exact ⟨_, issue_below_path _ _⟩

/-- Beside an animation that is called `type` but has another name, the token images keep the path of
their issue. -/
theorem tokenImages_isolated_beside :
    let value := Value.list [.integer 5]
    let entries := [(Atom.text "type", Value.text "Bar"), (.text tokenImagesKey, value)]
    let block := (runBlock [wantsSecondEntry] entries (.text tokenImagesKey, value)).issues
    lookupText tokenImagesKey entries = some value ∧
      block = (validateWith [wantsSecondEntry] (.mapping [(.text tokenImagesKey, value)])).issues ∧
      block.map Issue.path = [[.text tokenImagesKey, .number (.integer 0)]] := by
  intro value entries block
  have given : lookupText tokenImagesKey entries = some value := rfl
  have otherType : lookupText "type" entries ≠ some (.text tokenImagesKey) := by
    simp [entries, lookupText, tokenImagesKey]
  have isolated := (tokenImages_isolated_iff [wantsSecondEntry] given).mpr
    fun typed => absurd typed otherType
  exact ⟨given, isolated.1, by decide +kernel⟩

/-- A document whose type names the token images drops their key from the path of an issue further
inside, and what is left is the path of the document. -/
theorem tokenImages_notIsolated :
    let value := Value.list [.integer 5]
    let entries := [(Atom.text "type", Value.text tokenImagesKey), (.text tokenImagesKey, value)]
    let block := (runBlock [wantsSecondEntry] entries (.text tokenImagesKey, value)).issues
    let alone := (validateWith [wantsSecondEntry] (.mapping [(.text tokenImagesKey, value)])).issues
    (Value.mapping entries).IsJson ∧ lookupText tokenImagesKey entries = some value ∧
      block.map Issue.path = [[]] ∧
      alone.map Issue.path = [[.text tokenImagesKey, .number (.integer 0)]] ∧
      ¬ (block = alone ∧ ∀ issue ∈ block, ∃ rest, issue.path = .text tokenImagesKey :: rest) := by
  intro value entries block alone
  have lost : block.map Issue.path = [[]] := by decide +kernel
  have kept : alone.map Issue.path = [[.text tokenImagesKey, .number (.integer 0)]] := by
    decide +kernel
  refine ⟨by decide, rfl, lost, kept, ?_⟩
  rintro ⟨same, _⟩
  rw [same, kept] at lost
  simp at lost

end AnimationGrammar
