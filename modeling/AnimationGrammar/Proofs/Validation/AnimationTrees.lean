import AnimationGrammar.Proofs.Validation.Distinct

/-!
Trees of animations.

An animation may hold further animations under `contents`, to any depth.  `IsAnimationList` and
`IsAnimation` say what such a tree is: at every level the list is not empty and free of repetitions, and
every animation has some key and only known keys.  A JSON value passes as the animations of a roll option
exactly when it is such a tree.
-/

namespace AnimationGrammar

open Form Value

/-! ### The trees -/

/-- The keys of an animation but for the one that holds further animations, each with its own form. -/
def animationKeys : List (String × Form) :=
  [("overrides", .uniqueList .rollOption),
   ("trigger", .triggers),
   ("preset", .preset),
   ("file", .files),
   ("default", .flag),
   ("predicate", .predicates),
   ("options", .model .effectOptions),
   ("reference", .rollOption)]

def contentsKey : String := "contents"

/-- What an animation has to be apart from further animations inside of it. -/
structure HasAnimationKeys (entries : List (Atom × Value)) : Prop where
  given : entries ≠ []
  known : ∀ entry ∈ entries, ∃ name ∈ animationKeys.map Prod.fst ++ [contentsKey],
    entry.1 = .text name
  own : ∀ key ∈ animationKeys, ∀ inner, (Atom.text key.1, inner) ∈ entries → inner.Passes key.2

mutual

/-- The lists of animations. -/
inductive IsAnimationList : Value → Prop
  | items {items} : items ≠ [] → (items.Pairwise fun a b => ¬ Similar a b) →
      (∀ item ∈ items, IsAnimation item) → IsAnimationList (.list items)

inductive IsAnimation : Value → Prop
  | keys {entries} : HasAnimationKeys entries →
      (∀ inner, (Atom.text contentsKey, inner) ∈ entries → IsAnimationList inner) →
      IsAnimation (.mapping entries)

end

section
variable {value : Value}

theorem isAnimationList_iff : IsAnimationList value ↔
    ∃ items, value = .list items ∧ items ≠ [] ∧ (items.Pairwise fun a b => ¬ Similar a b) ∧
      ∀ item ∈ items, IsAnimation item := by
  constructor
  · intro isList
    cases isList with
    | items given distinct each => exact ⟨_, rfl, given, distinct, each⟩
  · rintro ⟨items, rfl, given, distinct, each⟩
    exact .items given distinct each

theorem isAnimation_iff : IsAnimation value ↔
    ∃ entries, value = .mapping entries ∧ HasAnimationKeys entries ∧
      ∀ inner, (Atom.text contentsKey, inner) ∈ entries → IsAnimationList inner := by
  constructor
  · intro isAnimation
    cases isAnimation with
    | keys keys contents => exact ⟨_, rfl, keys, contents⟩
  · rintro ⟨entries, rfl, keys, contents⟩
    exact .keys keys contents

/-! ### One level -/

theorem animationObject_fields : animationObjectDefinition.fields.map (fun field =>
    (field.name, field.form)) = animationKeys ++ [(contentsKey, .animationObjects)] := rfl

theorem animationObject_fieldNames :
    animationObjectDefinition.fieldNames = animationKeys.map Prod.fst ++ [contentsKey] := rfl

theorem animationKeys_regular : ∀ key ∈ animationKeys, key.2.isRegular = true := by
  decide +kernel

/-- Every field of an animation is one of its own keys, or holds further animations. -/
theorem forall_animationField_iff (property : String → Form → Prop) :
    (∀ field ∈ animationObjectDefinition.fields, property field.name field.form) ↔
      (∀ key ∈ animationKeys, property key.1 key.2) ∧ property contentsKey .animationObjects := by
  have all := List.forall_mem_map (l := animationObjectDefinition.fields)
    (f := fun field => (field.name, field.form)) (P := fun key => property key.1 key.2)
  rw [← all, animationObject_fields, List.forall_mem_append, List.forall_mem_singleton]

theorem animationObject_fits_iff {entries : List (Atom × Value)} :
    animationObjectDefinition.Fits .validation entries ↔ entries ≠ [] ∧
      ∀ entry ∈ entries, ∃ name ∈ animationKeys.map Prod.fst ++ [contentsKey],
        entry.1 = .text name := by
  rw [← animationObject_fieldNames]
  constructor
  · intro fits
    exact ⟨fits.met .someKey List.mem_cons_self, fits.known rfl⟩
  · rintro ⟨given, known⟩
    refine ⟨fun _ => known, ?_, ?_, ?_⟩
    · simp [animationObjectDefinition, animationFields]
    · simp [animationObjectDefinition, animationFields]
    · simpa [animationObjectDefinition, ModelRule.IsMet] using given

/-- The parts of an animation are in order when the value of each of its own keys passes, and what stands
under `contents` is admitted again. -/
theorem admits_animationParts_iff {entries : List (Atom × Value)}
    (json : (Value.mapping entries).IsJson) :
    (∀ part ∈ (Form.model .animationObject).parts (.mapping entries),
        Admits .validation part.1 part.2) ↔
      (∀ key ∈ animationKeys, ∀ inner, (Atom.text key.1, inner) ∈ entries →
        inner.Passes key.2) ∧
      ∀ inner, (Atom.text contentsKey, inner) ∈ entries →
        Admits .validation .animationObjects inner := by
  have own : (∀ key ∈ animationKeys, ∀ inner, (Atom.text key.1, inner) ∈ entries →
      inner.Passes key.2) ↔
      ∀ key ∈ animationKeys, ∀ inner, (Atom.text key.1, inner) ∈ entries →
        Admits .validation key.2 inner :=
    forall₂_congr fun key isKey => forall₂_congr fun inner membership =>
      (json.entry membership).passes_iff key.2 (animationKeys_regular key isKey)
  rw [own, ← forall_animationField_iff fun name form => ∀ inner,
    (Atom.text name, inner) ∈ entries → Admits .validation form inner]
  constructor
  · intro each field inFields inner membership
    exact each (field.form, inner) (mem_parts_model.mpr ⟨field, inFields, rfl, membership⟩)
  · rintro each ⟨form, inner⟩ inParts
    obtain ⟨field, inFields, rfl, membership⟩ := mem_parts_model.mp inParts
    exact each field inFields inner membership

theorem admits_animationObject_iff (json : value.IsJson) :
    Admits .validation (.model .animationObject) value ↔
      ∃ entries, value = .mapping entries ∧ HasAnimationKeys entries ∧
        ∀ inner, (Atom.text contentsKey, inner) ∈ entries →
          Admits .validation .animationObjects inner := by
  rw [admits_whole_iff rfl]
  constructor
  · rintro ⟨⟨entries, rfl, fits⟩, parts⟩
    obtain ⟨given, known⟩ := animationObject_fits_iff.mp fits
    obtain ⟨own, contents⟩ := (admits_animationParts_iff json).mp parts
    exact ⟨entries, rfl, ⟨given, known, own⟩, contents⟩
  · rintro ⟨entries, rfl, keys, contents⟩
    exact ⟨⟨entries, rfl, animationObject_fits_iff.mpr ⟨keys.given, keys.known⟩⟩,
      (admits_animationParts_iff json).mpr ⟨keys.own, contents⟩⟩

theorem admits_animationObjects_iff (json : value.IsJson) :
    Admits .validation .animationObjects value ↔
      ∃ items, value = .list items ∧ items ≠ [] ∧ (items.Pairwise fun a b => ¬ Similar a b) ∧
        ∀ item ∈ items, Admits .validation (.model .animationObject) item :=
  admits_uniqueList_iff (by decide +kernel) json

/-! ### All levels -/

/-- What is admitted as animations is a list of them, and the other way around.  Both sides go down from
lists to objects and back, so the two facts are proved together. -/
theorem Value.IsJson.animationTree (json : value.IsJson) :
    (Admits .validation .animationObjects value ↔ IsAnimationList value) ∧
      (Admits .validation (.model .animationObject) value ↔ IsAnimation value) := by
  induction value, json using jsonInduction with
  | atom a json =>
      rw [admits_animationObjects_iff json, isAnimationList_iff, admits_animationObject_iff json,
        isAnimation_iff]
      simp
  | list items json inductionHypothesis =>
      rw [admits_animationObjects_iff json, isAnimationList_iff, admits_animationObject_iff json,
        isAnimation_iff]
      refine ⟨exists_congr fun others => and_congr_right fun same => ?_, by simp⟩
      cases same
      refine and_congr_right fun _ => and_congr_right fun _ => ?_
      exact forall₂_congr fun item membership => (inductionHypothesis item membership).2
  | mapping entries json inductionHypothesis =>
      rw [admits_animationObjects_iff json, isAnimationList_iff, admits_animationObject_iff json,
        isAnimation_iff]
      refine ⟨by simp, exists_congr fun others => and_congr_right fun same => ?_⟩
      cases same
      refine and_congr_right fun _ => ?_
      exact forall₂_congr fun inner membership => (inductionHypothesis _ membership).1

end

/-- A JSON value passes as the animations of a roll option exactly when it is a list of animations. -/
theorem passes_animationObjects_iff {value : Value} (json : value.IsJson) :
    value.Passes .animationObjects ↔ IsAnimationList value := by
  rw [json.passes_iff _ (by decide +kernel)]
  exact json.animationTree.1

/-- An animation beside one that holds two more, one of them nested again. -/
def nestedAnimations : Value :=
  .list [
    .object [("file", .text "jb2a.\x7bbless,bane\x7d")],
    .object [("contents", .list [
      .object [("trigger", .text "toggle")],
      .object [("contents", .list [.object [("default", .boolean true)]])]])]]

theorem passes_nestedAnimations :
    nestedAnimations.IsJson ∧ nestedAnimations.Passes .animationObjects ∧
      IsAnimationList nestedAnimations := by
  have json : nestedAnimations.IsJson := by decide
  have passes : nestedAnimations.Passes .animationObjects := by decide +kernel
  exact ⟨json, passes, (passes_animationObjects_iff json).mp passes⟩

end AnimationGrammar
