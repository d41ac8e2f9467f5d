import AnimationGrammar.Proofs.Validation.AnimationTrees

/-!
The two models of an animation.

Playback takes reference objects, while documents hold animation entries.  Both models are made of the
same eight fields.  A reference object requires three of them; an entry has to have some key, and may
hold further entries.  So the objects that pass as reference objects are the entries without further
ones in which the three keys are given, and both models then make the same of every field.
-/

namespace AnimationGrammar

open Outcome Value

def referenceKeys : List String := ["trigger", "preset", "file"]

theorem animationFields_eq (required : List String) :
    animationFields required = animationKeys.map fun key =>
      { name := key.1, form := key.2, required := key.1 ∈ required } := rfl

section
variable {entries : List (Atom × Value)}

/-- The values under the keys of an animation are in order. -/
def AnimationValuesPass (entries : List (Atom × Value)) : Prop :=
  ∀ key ∈ animationKeys, ∀ value, lookupText key.1 entries = some value → value.Passes key.2

def AnimationKeysKnown (entries : List (Atom × Value)) : Prop :=
  ∀ entry ∈ entries, ∃ name ∈ animationKeys.map Prod.fst, entry.1 = .text name

theorem AnimationKeysKnown.flat (known : AnimationKeysKnown entries) :
    ¬ IsGiven entries contentsKey := by
  intro given
  obtain ⟨value, found⟩ := Option.isSome_iff_exists.mp given
  obtain ⟨name, isKey, same⟩ := known _ (lookupText_eq_some_mem found)
  obtain rfl : contentsKey = name := Atom.text.inj same
  revert isKey
  decide

/-- What is made of the keys of an animation. -/
def acceptedAnimation (entries : List (Atom × Value)) : List (String × Value) :=
  acceptedFields entries (animationFields [])

theorem acceptedFields_animationFields (required : List String) :
    acceptedFields entries (animationFields required) = acceptedAnimation entries := by
  unfold acceptedAnimation acceptedFields
  simp only [animationFields_eq, List.filterMap_map]
  rfl

theorem animationFields_fit_iff {required : List String} :
    (∀ field ∈ animationFields required, field.Fits entries) ↔
      AnimationValuesPass entries ∧
        ∀ key ∈ animationKeys, key.1 ∈ required → IsGiven entries key.1 := by
  rw [animationFields_eq, List.forall_mem_map]
  constructor
  · intro fits
    constructor
    · intro key isKey
      exact (fits key isKey).passes
    · intro key isKey needed
      exact (fits key isKey).given (decide_eq_true needed)
  · intro ⟨passes, given⟩ key isKey
    constructor
    · intro needed
      exact given key isKey (of_decide_eq_true needed)
    · exact passes key isKey
    · intro _ other excluded
      cases excluded

theorem acceptedAnimation_ne_nil (passes : AnimationValuesPass entries) {key : String}
    (isKey : key ∈ animationKeys.map Prod.fst) (given : IsGiven entries key) :
    acceptedAnimation entries ≠ [] := by
  intro none
  have fits : ∀ field ∈ animationFields [], field.Fits entries := by
    apply animationFields_fit_iff.mpr
    exact ⟨passes, fun key _ needed => absurd needed List.not_mem_nil⟩
  have found := (isSome_lookup_acceptedFields fits isKey).mpr given
  have empty : acceptedFields entries (animationFields []) = [] := none
  simp [empty] at found

/-! ### The two models -/

/-- What an object has to be to pass as a reference object, and what becomes of it. -/
theorem check_referenceObject_iff {result : Value} :
    (Value.mapping entries).check (.model .referenceObject) = .ok result ↔
      AnimationValuesPass entries ∧ (∀ key ∈ referenceKeys, IsGiven entries key) ∧
        AnimationKeysKnown entries ∧
        result = .record .referenceObject (acceptedAnimation entries) := by
  have given : (∀ key ∈ animationKeys, key.1 ∈ referenceKeys → IsGiven entries key.1) ↔
      ∀ key ∈ referenceKeys, IsGiven entries key := by
    simp [animationKeys, referenceKeys]
  have fits : (∀ field ∈ referenceObjectDefinition.fields, field.Fits entries) ↔
      AnimationValuesPass entries ∧
        ∀ key ∈ animationKeys, key.1 ∈ referenceKeys → IsGiven entries key.1 :=
    animationFields_fit_iff
  have known : (referenceObjectDefinition.closed = true → ∀ entry ∈ entries,
      ∃ name ∈ referenceObjectDefinition.fieldNames, entry.1 = .text name) ↔
      AnimationKeysKnown entries := forall_prop_of_true rfl
  have gathered : acceptedFields entries referenceObjectDefinition.fields =
      acceptedAnimation entries := acceptedFields_animationFields referenceKeys
  rw [check_model]
  apply assemble_entryOutcomes_eq_ok_iff.trans
  rw [ModelName.definition, fits, given, known, gathered, and_assoc]
  simp [referenceObjectDefinition]

theorem check_animationObject_iff (flat : ¬ IsGiven entries contentsKey) {result : Value} :
    (Value.mapping entries).check (.model .animationObject) = .ok result ↔
      AnimationValuesPass entries ∧ AnimationKeysKnown entries ∧
        acceptedAnimation entries ≠ [] ∧
        result = .record .animationObject (acceptedAnimation entries) := by
  have absent : lookupText contentsKey entries = none := Option.not_isSome_iff_eq_none.mp flat
  have split : animationObjectDefinition.fields =
      animationFields [] ++ [{ name := contentsKey, form := .animationObjects }] := rfl
  have contentsFit :
      Field.Fits entries { name := contentsKey, form := .animationObjects } := by
    constructor
    · intro needed
      cases needed
    · intro value given
      simp [absent] at given
    · intro given
      exact absurd given flat
  have fits : (∀ field ∈ animationObjectDefinition.fields, field.Fits entries) ↔
      AnimationValuesPass entries := by
    rw [split, List.forall_mem_append, List.forall_mem_singleton, animationFields_fit_iff]
    simp [contentsFit]
  have known : (animationObjectDefinition.closed = true → ∀ entry ∈ entries,
      ∃ name ∈ animationObjectDefinition.fieldNames, entry.1 = .text name) ↔
      AnimationKeysKnown entries := by
    rw [animationObject_fieldNames]
    apply (forall_prop_of_true rfl).trans
    apply forall₂_congr
    intro entry membership
    have other : entry.1 ≠ .text contentsKey := by
      intro same
      rw [lookupText_eq_none_iff] at absent
      exact absent entry membership same
    simp [or_and_right, exists_or, other]
  have gathered : acceptedFields entries animationObjectDefinition.fields =
      acceptedAnimation entries := by
    rw [split, acceptedFields, List.filterMap_append]
    have nothing : acceptedField? entries { name := contentsKey, form := .animationObjects } = none :=
      acceptedField?_of_absent absent
    simp [nothing, acceptedAnimation, acceptedFields]
  rw [check_model]
  apply assemble_entryOutcomes_eq_ok_iff.trans
  rw [ModelName.definition, fits, known, gathered]
  simp [animationObjectDefinition, ModelRule.failure?]

end

/-! ### In step -/

theorem referenceObject_passes_iff {value : Value} (noRecord : value.isRecord = false) :
    value.Passes (.model .referenceObject) ↔
      value.Passes (.model .animationObject) ∧
        (∀ key ∈ referenceKeys, (value.get? key).isSome = true) ∧
        value.get? contentsKey = none := by
  constructor
  · intro passes
    obtain ⟨entries, rfl⟩ := passes.eq_mapping noRecord
    obtain ⟨result, accepted⟩ := passes
    obtain ⟨values, given, known, -⟩ := check_referenceObject_iff.mp accepted
    have something : acceptedAnimation entries ≠ [] :=
      acceptedAnimation_ne_nil values (by decide) (given "trigger" (by decide))
    have entry := (check_animationObject_iff known.flat).mpr ⟨values, known, something, rfl⟩
    exact ⟨⟨_, entry⟩, given, Option.not_isSome_iff_eq_none.mp known.flat⟩
  · intro ⟨passes, given, absent⟩
    obtain ⟨entries, rfl⟩ := passes.eq_mapping noRecord
    obtain ⟨result, accepted⟩ := passes
    have flat : ¬ IsGiven entries contentsKey := Option.not_isSome_iff_eq_none.mpr absent
    obtain ⟨values, known, -⟩ := (check_animationObject_iff flat).mp accepted
    exact ⟨_, check_referenceObject_iff.mpr ⟨values, given, known, rfl⟩⟩

theorem fields_inStep {value reference entry : Value} (noRecord : value.isRecord = false)
    (isReference : value.check (.model .referenceObject) = .ok reference)
    (isEntry : value.check (.model .animationObject) = .ok entry) :
    ∃ fields, reference = .record .referenceObject fields ∧
      entry = .record .animationObject fields := by
  have passes : value.Passes (.model .referenceObject) := ⟨reference, isReference⟩
  obtain ⟨entries, rfl⟩ := passes.eq_mapping noRecord
  obtain ⟨_, _, known, rfl⟩ := check_referenceObject_iff.mp isReference
  obtain ⟨_, _, _, rfl⟩ := (check_animationObject_iff known.flat).mp isEntry
  exact ⟨_, rfl, rfl⟩

/-- An object passes as a reference object exactly when it passes as an entry, has the required keys and
holds no further entries; both models then make the same of every key that they share. -/
theorem referenceObject_inStep {value : Value} (noRecord : value.isRecord = false) :
    (value.Passes (.model .referenceObject) ↔
      value.Passes (.model .animationObject) ∧
        (∀ key ∈ referenceKeys, (value.get? key).isSome = true) ∧
        value.get? contentsKey = none) ∧
    ∀ reference entry, value.check (.model .referenceObject) = .ok reference →
      value.check (.model .animationObject) = .ok entry →
      ∀ key ∈ animationKeys.map Prod.fst, reference.get? key = entry.get? key := by
  constructor
  · exact referenceObject_passes_iff noRecord
  · intro reference entry isReference isEntry key _
    obtain ⟨fields, rfl, rfl⟩ := fields_inStep noRecord isReference isEntry
    rfl

/-- An animation with the required keys and one that both models change. -/
def toggledAnimation : Value :=
  .object [("trigger", .text "toggle"), ("preset", .text "onToken"),
    ("file", .list [.text "jb2a.bless"]), ("default", .integer 1)]

/-- The animation passes both models, which make the same of its setting. -/
theorem toggledAnimation_inStep :
    toggledAnimation.isRecord = false ∧ toggledAnimation.Passes (.model .animationObject) ∧
      toggledAnimation.Passes (.model .referenceObject) ∧
      ∀ reference entry, toggledAnimation.check (.model .referenceObject) = .ok reference →
        toggledAnimation.check (.model .animationObject) = .ok entry →
        reference.get? "default" = entry.get? "default" := by
  have noRecord : toggledAnimation.isRecord = false := rfl
  have passes : toggledAnimation.Passes (.model .animationObject) := by decide +kernel
  obtain ⟨accepted, same⟩ := referenceObject_inStep noRecord
  refine ⟨noRecord, passes, accepted.mpr ⟨passes, by decide, rfl⟩, ?_⟩
  intro reference entry isReference isEntry
  exact same reference entry isReference isEntry "default" (by decide)

end AnimationGrammar
