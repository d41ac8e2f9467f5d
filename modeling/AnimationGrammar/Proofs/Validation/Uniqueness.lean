import AnimationGrammar.Proofs.Validation.ReadAlike
import AnimationGrammar.Proofs.Validation.RoundTrip

/-!
Which accepted lists are free of duplicates.

The items of a list that have to differ are compared as they were given, before validation has rounded
their numbers and replaced their flags.  So what is accepted may repeat itself after all: it does exactly
when two items are read alike.  Among items that validation keeps as they stand this does not happen.
-/

namespace AnimationGrammar

open Value

/-- Whether a form takes a value and validation keeps it as it stands. -/
structure IsKept (form : Form) (value : Value) : Prop where
  json : value.IsJson
  admits : Admits .validation form value
  keepsKeys : ∀ leaf ∈ form.leaves, leaf.keepsKeys = true
  verbatim : IsVerbatim form value

namespace IsKept

variable {form inner : Form} {value place : Value}

theorem branch {dispatch : Dispatch} {branches : List (String × Form)} {label : String}
    (kept : IsKept (.choice dispatch branches) value) (found : dispatch.label? value = some label)
    (entered : branches.lookup label = some form) : IsKept form value where
  json := kept.json
  admits := by
    obtain ⟨other, _, bears, otherEntered, admits⟩ := admits_choice_iff.mp kept.admits
    rw [found, Option.some.injEq] at bears
    rw [← bears, entered, Option.some.injEq] at otherEntered
    exact otherEntered ▸ admits
  keepsKeys leaf isLeaf :=
    kept.keepsKeys leaf (Form.leaves_branch (lookup_eq_some_mem entered) isLeaf)
  verbatim := kept.verbatim.branch found entered

theorem part (kept : IsKept form value) (membership : (inner, place) ∈ form.parts value) :
    IsKept inner place where
  json := kept.json.part (Form.isPartOf_of_mem_parts membership)
  admits := ((admits_whole_iff (Form.isWhole_of_mem_parts membership)).mp kept.admits).2
    (inner, place) membership
  keepsKeys := Form.keepsKeys_of_mem_parts kept.keepsKeys membership
  verbatim := kept.verbatim.part membership

end IsKept

/-- Objects of one model that are kept have the same keys if they say something under the same. -/
theorem sameKeys_of_filled {name : ModelName} {xs ys : List (Atom × Value)}
    (first : IsKept (.model name) (.mapping xs)) (second : IsKept (.model name) (.mapping ys))
    (filled : ∀ field ∈ name.definition.fields, IsFilled xs field.name ↔ IsFilled ys field.name)
    (key : String) : (lookupText key xs).isSome = (lookupText key ys).isSome := by
  have closed : name.definition.closed = true := first.keepsKeys _ List.mem_cons_self
  have filled_iff {entries : List (Atom × Value)} (kept : IsKept (.model name) (.mapping entries))
      {field : Field} (inFields : field ∈ name.definition.fields) :
      IsFilled entries field.name ↔ (lookupText field.name entries).isSome = true := by
    rw [Option.isSome_iff_exists]
    exact exists_congr fun value => and_iff_left_of_imp fun given =>
      kept.verbatim.ne_null kept.admits inFields given
  by_cases declared : key ∈ name.definition.fieldNames
  · obtain ⟨field, inFields, rfl⟩ := List.mem_map.mp declared
    rw [Bool.eq_iff_iff, ← filled_iff first inFields, ← filled_iff second inFields]
    exact filled field inFields
  · rw [first.admits.lookup_eq_none closed declared, second.admits.lookup_eq_none closed declared]

theorem ReadAlike.similar {form : Form} {a b : Value} (alike : ReadAlike form a b)
    (first : IsKept form a) (second : IsKept form b) : Similar a b := by
  induction alike with
  | branch found foundToo entered _ inductionHypothesis =>
      exact inductionHypothesis (first.branch found entered) (second.branch foundToo entered)
  | text => exact .text _
  | @number rule n m x y rounded roundedToo equal =>
      have ordered : n.IsOrdered := first.json.node
      have orderedToo : m.IsOrdered := second.json.node
      rw [Double.isEqual_eq, Numeral.isEqual_iff (Numeral.toDouble?_isOrdered ordered rounded)
        (Numeral.toDouble?_isOrdered orderedToo roundedToo), first.verbatim.rounded_place rounded,
        second.verbatim.rounded_place roundedToo, ← Numeral.isEqual_iff ordered orderedToo] at equal
      exact .number equal
  | literal => exact .text _
  | flag =>
      rw [first.verbatim.flags _ (.here rfl), second.verbatim.flags _ (.here rfl)]
      exact .boolean true
  | anyJson similar => exact similar
  | @tuple positions distinct xs ys sameLength _ inductionHypothesis =>
      refine .list sameLength fun pair paired => ?_
      obtain ⟨i, position⟩ := List.mem_iff_getElem?.mp paired
      obtain ⟨inXs, inYs⟩ := List.getElem?_zip_eq_some.mp position
      obtain ⟨⟨_, same, length, _⟩, _⟩ := (admits_whole_iff rfl).mp first.admits
      cases same
      obtain ⟨short, _⟩ := List.getElem?_eq_some_iff.mp inXs
      have here := List.getElem?_eq_getElem (length ▸ short)
      have inFirst := List.getElem?_zip_eq_some (z := (_, pair.1)).mpr ⟨here, inXs⟩
      have inSecond := List.getElem?_zip_eq_some (z := (_, pair.2)).mpr ⟨here, inYs⟩
      exact inductionHypothesis i _ _ _ here inXs inYs (first.part (List.mem_of_getElem? inFirst))
        (second.part (List.mem_of_getElem? inSecond))
  | list sameLength _ inductionHypothesis =>
      refine .list sameLength fun pair paired => ?_
      obtain ⟨inXs, inYs⟩ := List.of_mem_zip paired
      exact inductionHypothesis pair paired (first.part (List.mem_map_of_mem inXs))
        (second.part (List.mem_map_of_mem inYs))
  | dictionary sameKeys _ inductionHypothesis =>
      refine .object sameKeys fun name x y inXs inYs => ?_
      exact inductionHypothesis name x y inXs inYs
        (first.part (List.mem_map_of_mem (lookupText_eq_some_mem inXs)))
        (second.part (List.mem_map_of_mem (lookupText_eq_some_mem inYs)))
  | @model name xs ys filled _ inductionHypothesis =>
      refine .object (sameKeys_of_filled first second filled) fun key x y inXs inYs => ?_
      have declared : key ∈ name.definition.fieldNames := by
        by_contra undeclared
        have closed : name.definition.closed = true := first.keepsKeys _ List.mem_cons_self
        simp [first.admits.lookup_eq_none closed undeclared] at inXs
      obtain ⟨field, inFields, rfl⟩ := List.mem_map.mp declared
      exact inductionHypothesis field inFields x y inXs inYs
        (first.part (Form.mem_parts_model.mpr ⟨field, inFields, rfl, lookupText_eq_some_mem inXs⟩))
        (second.part (Form.mem_parts_model.mpr ⟨field, inFields, rfl, lookupText_eq_some_mem inYs⟩))

/-! ### Lists -/

/-- What is accepted as a list of items that have to differ: every item passes, the items that were
given differ, and the result holds what has become of each. -/
theorem check_unique_eq_ok {item : Form} {minLength : Option Nat} {items : List Value} {result : Value}
    (accepted : (Value.list items).check (.list item minLength true) = .ok result) :
    (∀ value ∈ items, value.Passes item) ∧ hasDuplicates items = false ∧
      result = .list (items.map fun value => value.checked item) := by
  obtain ⟨passes, rfl⟩ := Value.check_eq_ok_iff.mp accepted
  obtain ⟨each, _, differ⟩ := finishList_passes_iff.mp ((passes_whole_iff rfl).mp passes)
  exact ⟨each, (repetition?_eq_none_iff.mp (differ rfl)).1, checked_list passes⟩

theorem hasDuplicates_checked_iff {item : Form} (uniform : item.isUniform = true) {items : List Value}
    (json : ∀ value ∈ items, value.IsJson) (passes : ∀ value ∈ items, value.Passes item) :
    hasDuplicates (items.map fun value => value.checked item) = false ↔
      items.Pairwise fun a b => ¬ ReadAlike item a b := by
  rw [hasDuplicates, repeats_eq_false_iff, canonicalTexts_eq, List.map_map, List.Nodup,
    List.pairwise_map]
  refine List.Pairwise.iff_of_mem fun {a b} inItems inItemsToo => not_congr ?_
  have admits := ((json a inItems).passes_iff_of_uniform uniform).mp (passes a inItems)
  have otherAdmits := ((json b inItemsToo).passes_iff_of_uniform uniform).mp (passes b inItemsToo)
  exact admits.text_eq_iff otherAdmits (json a inItems) (json b inItemsToo) uniform

/-- An accepted list has no duplicates exactly when no two of its items are read alike, so it has none
if validation keeps every item as it stands. -/
theorem uniqueList_noDuplicates {item : Form} (grammar : item.IsOfGrammar) {minLength : Option Nat}
    {items : List Value} (json : (Value.list items).IsJson) {result : Value}
    (accepted : (Value.list items).check (.list item minLength true) = .ok result) :
    ∃ results, result = .list results ∧
      (hasDuplicates results = false ↔ items.Pairwise fun a b => ¬ ReadAlike item a b) ∧
      (item ≠ .model .tokenImages → (∀ value ∈ items, IsVerbatim item value) →
        hasDuplicates results = false) := by
  have uniform := grammar.isUniform
  have jsonItem (value : Value) (membership : value ∈ items) : value.IsJson := json.item membership
  obtain ⟨passes, differ, rfl⟩ := check_unique_eq_ok accepted
  have exactly := hasDuplicates_checked_iff uniform jsonItem passes
  refine ⟨_, rfl, exactly, fun notRoot verbatim => exactly.mpr ?_⟩
  have kept (value : Value) (membership : value ∈ items) : IsKept item value :=
    ⟨jsonItem value membership,
      ((jsonItem value membership).passes_iff_of_uniform uniform).mp (passes value membership),
      grammar.keepsKeys notRoot, verbatim value membership⟩
  rw [hasDuplicates_eq_false_iff jsonItem] at differ
  refine differ.imp_of_mem fun {a b} inItems inItemsToo apart alike => ?_
  have similar := alike.similar (kept a inItems) (kept b inItemsToo)
  rw [← (jsonItem a inItems).isSimilar_iff (jsonItem b inItemsToo), apart] at similar
  exact Bool.false_ne_true similar

def comparisons : List Value :=
  [.object [("gte", .list [.text "foo", .integer 2])],
    .object [("gte", .list [.text "foo", .integer 3])]]

theorem comparisons_noDuplicates : ∃ results,
    (Value.list comparisons).check .predicates = .ok (.list results) ∧
      hasDuplicates results = false := by
  have json : (Value.list comparisons).IsJson := by decide
  have grammar : Form.predicate.IsOfGrammar :=
    @Form.IsOfGrammar.named "Predicate" _ (by simp [Form.named])
  have passes : (Value.list comparisons).Passes .predicates :=
    (Value.givesReason _ _ rfl).faults_eq_nil_iff.mp (by decide +kernel)
  have admits := (json.passes_iff .predicates rfl).mp passes
  have verbatim : IsVerbatim .predicates (.list comparisons) :=
    .of_parts admits (by decide +kernel) (by decide +kernel) (by decide +kernel)
  obtain ⟨result, accepted⟩ := passes
  obtain ⟨results, rfl, _, differ⟩ := uniqueList_noDuplicates grammar json accepted
  exact ⟨results, accepted, differ (by simp [Form.predicate])
    fun value membership => verbatim.part (List.mem_map_of_mem membership)⟩

def nearbyIntegers : List Value := [.integer 9007199254740992, .integer 9007199254740993]

/-- Integers that differ are accepted as a list without duplicates, and become equal doubles. -/
theorem nearbyIntegers_repeat : Form.anyNumber.IsOfGrammar ∧ (Value.list nearbyIntegers).IsJson ∧
    hasDuplicates nearbyIntegers = false ∧
    ∃ results, (Value.list nearbyIntegers).check (.uniqueList .anyNumber) = .ok (.list results) ∧
      hasDuplicates results = true := by
  have grammar : Form.anyNumber.IsOfGrammar :=
    @Form.IsOfGrammar.named "Number" _ (by simp [Form.named])
  have json : (Value.list nearbyIntegers).IsJson := by decide
  have passes : (Value.list nearbyIntegers).Passes (.uniqueList .anyNumber) :=
    (Value.givesReason _ _ rfl).faults_eq_nil_iff.mp (by decide +kernel)
  obtain ⟨result, accepted⟩ := passes
  obtain ⟨_, differ, rfl⟩ := check_unique_eq_ok accepted
  exact ⟨grammar, json, differ, _, accepted, by decide +kernel⟩

end AnimationGrammar
