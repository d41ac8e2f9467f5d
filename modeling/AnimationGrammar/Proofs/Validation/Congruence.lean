import AnimationGrammar.Proofs.Validation.ReadAlike
import AnimationGrammar.Proofs.Validation.Readings

/-!
Validation does not tell similar values apart.

A form that admits a value admits every value that is similar to it, and reads the two alike.  What fits
a form at one place is carried over place by place: numbers by their roundings, lists item by item,
objects key by key, whatever the order of the keys.  The same follows for whole documents.
-/

namespace AnimationGrammar

open Value
open Numeral (isEqual_iff toDouble?_congr toDouble?_isOrdered)

/-! ### Similar wholes have similar parts -/

namespace Value

theorem item_of_similar {xs ys : List Value} (sameLength : xs.length = ys.length)
    (each : ∀ pair ∈ xs.zip ys, Similar pair.1 pair.2) {i : Nat} {y : Value}
    (found : ys[i]? = some y) : ∃ x, xs[i]? = some x ∧ Similar x y := by
  obtain ⟨short, _⟩ := List.getElem?_eq_some_iff.mp found
  have like := List.getElem?_eq_getElem (sameLength ▸ short)
  exact ⟨_, like, each (_, y) (List.mem_of_getElem? (List.getElem?_zip_eq_some.mpr ⟨like, found⟩))⟩

section
variable {xs ys : List (Atom × Value)}
  (sameKeys : ∀ name, (lookupText name xs).isSome = (lookupText name ys).isSome)
  (each : ∀ name x y, lookupText name xs = some x → lookupText name ys = some y → Similar x y)
include sameKeys

theorem isGiven_congr (name : String) : IsGiven xs name ↔ IsGiven ys name := by
  rw [IsGiven, IsGiven, sameKeys]

include each

theorem lookupText_of_similar {name : String} {y : Value} (given : lookupText name ys = some y) :
    ∃ x, lookupText name xs = some x ∧ Similar x y := by
  have found := sameKeys name
  rw [given, Option.isSome_some, Option.isSome_iff_exists] at found
  obtain ⟨x, found⟩ := found
  exact ⟨x, found, each name x y found given⟩

theorem entry_of_similar (second : (Value.mapping ys).IsJson) {key : Atom} {y : Value}
    (membership : (key, y) ∈ ys) : ∃ x, (key, x) ∈ xs ∧ Similar x y := by
  obtain ⟨name, rfl⟩ := second.key membership
  obtain ⟨x, found, similar⟩ := lookupText_of_similar sameKeys each
    ((lookupText_eq_some_iff second.keysDiffer).mpr membership)
  exact ⟨x, lookupText_eq_some_mem found, similar⟩

theorem isFilled_congr (name : String) : IsFilled xs name ↔ IsFilled ys name := by
  cases given : lookupText name ys with
  | none =>
      have absent := sameKeys name
      rw [given, Option.isSome_none, Option.isSome_eq_false_iff, Option.isNone_iff_eq_none] at absent
      simp [not_isFilled given, not_isFilled absent]
  | some y =>
      obtain ⟨x, found, similar⟩ := lookupText_of_similar sameKeys each given
      rw [isFilled_iff given, isFilled_iff found, not_iff_not]
      constructor
      · rintro rfl
        cases similar
        rfl
      · rintro rfl
        cases similar
        rfl

end

end Value

theorem Form.part_of_similar {form : Form} {a b : Value} (similar : Similar a b)
    (second : b.IsJson) {part : Form × Value} (membership : part ∈ form.parts b) :
    ∃ like, (part.1, like) ∈ form.parts a ∧ Similar like part.2 := by
  obtain ⟨inner, y⟩ := part
  cases mem_parts_iff.mp membership with
  | position inZip =>
      cases similar with
      | list sameLength each =>
          obtain ⟨i, position⟩ := List.mem_iff_getElem?.mp inZip
          obtain ⟨inPositions, inYs⟩ := List.getElem?_zip_eq_some.mp position
          obtain ⟨x, inXs, similar⟩ := item_of_similar sameLength each inYs
          refine ⟨x, mem_parts_iff.mpr (.position (List.mem_of_getElem? (i := i) ?_)), similar⟩
          exact List.getElem?_zip_eq_some.mpr ⟨inPositions, inXs⟩
  | item inItems =>
      cases similar with
      | list sameLength each =>
          obtain ⟨i, inYs⟩ := List.mem_iff_getElem?.mp inItems
          obtain ⟨x, inXs, similar⟩ := item_of_similar sameLength each inYs
          exact ⟨x, mem_parts_iff.mpr (.item (List.mem_of_getElem? inXs)), similar⟩
  | entry inEntries =>
      cases similar with
      | object sameKeys each =>
          obtain ⟨x, inXs, similar⟩ := entry_of_similar sameKeys each second inEntries
          exact ⟨x, mem_parts_iff.mpr (.entry inXs), similar⟩
  | field inFields given =>
      cases similar with
      | object sameKeys each =>
          obtain ⟨x, inXs, similar⟩ := entry_of_similar sameKeys each second given
          exact ⟨x, mem_parts_iff.mpr (.field inFields inXs), similar⟩

/-! ### One place -/

/-- What is similar to a number is a number, and its rounding stands where the other one does. -/
theorem rounded_of_similar {value : Value} {m : Numeral} {y : Double}
    (similar : Similar value (.number m)) (first : value.IsJson) (second : (Value.number m).IsJson)
    (rounded : m.toDouble? = some y) :
    ∃ n x, value = .number n ∧ n.toDouble? = some x ∧ (Numeral.double x).IsOrdered ∧
      (Numeral.double y).IsOrdered ∧ (Numeral.double x).place = (Numeral.double y).place := by
  cases similar with
  | @number n _ equal =>
      have ordered : n.IsOrdered := first.node
      have orderedToo : m.IsOrdered := second.node
      rw [isEqual_iff ordered orderedToo] at equal
      obtain ⟨x, roundedToo, place⟩ := toDouble?_congr equal.symm rounded
      exact ⟨n, x, rfl, roundedToo, toDouble?_isOrdered ordered roundedToo,
        toDouble?_isOrdered orderedToo rounded, place⟩

namespace Reading.validation

theorem flag_congr {a b : Value} (similar : Similar a b) (first : a.IsJson) (second : b.IsJson)
    (set : validation.flag a) : validation.flag b := by
  rcases set with rfl | ⟨n, rfl, one⟩
  · cases similar
    exact .inl rfl
  · cases similar with
    | @number _ m equal =>
        have ordered : n.IsOrdered := first.node
        have orderedToo : m.IsOrdered := second.node
        have orderedOne : (Numeral.integer 1).IsOrdered := by simp [Numeral.IsOrdered]
        rw [isEqual_iff ordered orderedToo] at equal
        rw [isEqual_iff ordered orderedOne, equal, ← isEqual_iff orderedToo orderedOne] at one
        exact .inr ⟨m, rfl, one⟩

section
variable {xs ys : List Value} (sameLength : xs.length = ys.length)
  (each : ∀ pair ∈ xs.zip ys, Similar pair.1 pair.2) (first : (Value.list xs).IsJson)
  (second : (Value.list ys).IsJson)
include sameLength each first second

theorem distinct_congr (distinct : validation.distinct xs) : validation.distinct ys := by
  rintro c d rest z w rfl roundedC roundedD
  obtain ⟨v, others, rfl⟩ := List.exists_cons_of_length_eq_add_one sameLength
  obtain ⟨u, others, rfl⟩ := List.exists_cons_of_length_eq_add_one (Nat.succ.inj sameLength)
  have jsonC : (Value.number c).IsJson := second.item List.mem_cons_self
  have jsonD : (Value.number d).IsJson :=
    second.item (List.mem_cons_of_mem _ List.mem_cons_self)
  obtain ⟨a, x, rfl, roundedA, orderedX, orderedZ, placeX⟩ :=
    rounded_of_similar (each (v, _) List.mem_cons_self) (first.item List.mem_cons_self) jsonC roundedC
  obtain ⟨b, y, rfl, roundedB, orderedY, orderedW, placeY⟩ :=
    rounded_of_similar (each (u, _) (List.mem_cons_of_mem _ List.mem_cons_self))
      (first.item (List.mem_cons_of_mem _ List.mem_cons_self)) jsonD roundedD
  rw [← Bool.not_eq_true, Double.isEqual_eq, isEqual_iff orderedZ orderedW, ← placeX, ← placeY,
    ← isEqual_iff orderedX orderedY, ← Double.isEqual_eq, Bool.not_eq_true]
  exact distinct a b others x y rfl roundedA roundedB

theorem unique_congr (unique : validation.unique xs) : validation.unique ys := by
  have pair {x y : Value} (paired : (x, y) ∈ xs.zip ys) : Similar x y ∧ x.IsJson ∧ y.IsJson := by
    obtain ⟨inXs, inYs⟩ := List.of_mem_zip paired
    exact ⟨each _ paired, first.item inXs, second.item inYs⟩
  have texts : xs.map Value.canonicalText = ys.map Value.canonicalText := by
    refine map_eq_map_iff_zip.mpr ⟨sameLength, fun _ paired => ?_⟩
    obtain ⟨similar, jsonX, jsonY⟩ := pair paired
    exact (jsonX.canonicalText_eq_iff_similar jsonY).mpr similar
  have long : xs.map hasLongNumber = ys.map hasLongNumber := by
    refine map_eq_map_iff_zip.mpr ⟨sameLength, fun _ paired => ?_⟩
    obtain ⟨similar, jsonX, jsonY⟩ := pair paired
    exact similar.hasLongNumber_eq jsonX jsonY
  obtain ⟨differ, short⟩ := repetition?_eq_none_iff.mp unique
  refine repetition?_eq_none_iff.mpr ⟨?_, ?_⟩
  · rwa [hasDuplicates, canonicalTexts_eq, ← texts, ← canonicalTexts_eq]
  · rw [← List.forall_mem_map (P := (· = false)), ← long, List.forall_mem_map]
    exact short

end

section
variable {xs ys : List (Atom × Value)} (first : (Value.mapping xs).IsJson)
  (second : (Value.mapping ys).IsJson)
  (sameKeys : ∀ name, (lookupText name xs).isSome = (lookupText name ys).isSome)
  (each : ∀ name x y, lookupText name xs = some x → lookupText name ys = some y → Similar x y)
include first second sameKeys each

theorem ordered_congr (ordered : validation.ordered xs) : validation.ordered ys := by
  intro c d z w givenMost givenLeast roundedC roundedD
  obtain ⟨v, foundMost, similarMost⟩ := lookupText_of_similar sameKeys each givenMost
  obtain ⟨u, foundLeast, similarLeast⟩ := lookupText_of_similar sameKeys each givenLeast
  obtain ⟨a, x, rfl, roundedA, orderedX, orderedZ, placeX⟩ := rounded_of_similar similarMost
    (first.entry (lookupText_eq_some_mem foundMost))
    (second.entry (lookupText_eq_some_mem givenMost)) roundedC
  obtain ⟨b, y, rfl, roundedB, orderedY, orderedW, placeY⟩ := rounded_of_similar similarLeast
    (first.entry (lookupText_eq_some_mem foundLeast))
    (second.entry (lookupText_eq_some_mem givenLeast)) roundedD
  rw [← Bool.not_eq_true, Double.isAtMost_iff orderedZ orderedW, ← placeX, ← placeY,
    ← Double.isAtMost_iff orderedX orderedY, Bool.not_eq_true]
  exact ordered a b x y foundMost foundLeast roundedA roundedB

theorem fits_congr {definition : Definition} (fits : definition.Fits .validation xs) :
    definition.Fits .validation ys := by
  have given := isGiven_congr sameKeys
  refine ⟨fun closed => known_of_sameKeys second sameKeys (fits.known closed), ?_, ?_, ?_⟩
  · intro field inFields required
    rw [← given]
    exact fits.given field inFields required
  · intro field inFields isGiven other excluded
    rw [← given] at isGiven ⊢
    exact fits.exclusive field inFields isGiven other excluded
  · intro rule inRules
    have met := fits.met rule inRules
    cases rule with
    | someKey => exact ne_nil_of_sameKeys first sameKeys met
    | someDimension => rwa [ModelRule.IsMet, ← given, ← given]
    | orderedDelays =>
        rw [ModelRule.IsMet, ← given, ← given]
        exact ⟨met.1, ordered_congr first second sameKeys each met.2⟩

end

end Reading.validation

open Reading.validation

theorem Form.Fits.congr {form : Form} {a b : Value} (fits : form.Fits .validation a)
    (similar : Similar a b) (first : a.IsJson) (second : b.IsJson) (uniform : form.isUniform = true) :
    form.Fits .validation b := by
  cases form with
  | text rule =>
      obtain ⟨content, rfl, accepted⟩ := fits
      cases similar
      exact ⟨content, rfl, accepted⟩
  | number rule =>
      obtain ⟨n, rfl, taken⟩ := fits
      cases similar with
      | @number _ m equal =>
          exact ⟨m, rfl, number_validation_congr first.node second.node equal uniform taken⟩
  | literal choices =>
      obtain ⟨content, chosen, rfl⟩ := fits
      cases similar
      exact ⟨content, chosen, rfl⟩
  | flag => exact flag_congr similar first second fits
  | anyJson => trivial
  | tuple positions distinct =>
      obtain ⟨xs, rfl, length, differ⟩ := fits
      cases similar with
      | @list _ ys sameLength each =>
          exact ⟨ys, rfl, sameLength ▸ length, fun needed =>
            distinct_congr sameLength each first second (differ needed)⟩
  | list item minLength unique =>
      obtain ⟨xs, rfl, enough, differ⟩ := fits
      cases similar with
      | @list _ ys sameLength each =>
          exact ⟨ys, rfl, sameLength ▸ enough, fun needed =>
            unique_congr sameLength each first second (differ needed)⟩
  | dictionary key item =>
      obtain ⟨xs, rfl, keys⟩ := fits
      cases similar with
      | @object _ ys sameKeys each =>
          refine ⟨ys, rfl, fun entry membership => ?_⟩
          obtain ⟨x, inXs, _⟩ := entry_of_similar sameKeys each second membership
          exact keys (entry.1, x) inXs
  | choice dispatch branches => exact fits.elim
  | model name =>
      obtain ⟨xs, rfl, fits⟩ := fits
      cases similar with
      | @object _ ys sameKeys each =>
          exact ⟨ys, rfl, fits_congr first second sameKeys each fits⟩

/-! ### Whole values -/

section
variable {form : Form} {a b : Value}

/-- What a form takes it takes in every spelling. -/
theorem Admits.congr (admits : Admits .validation form a) (similar : Similar a b)
    (first : a.IsJson) (second : b.IsJson) (uniform : form.isUniform = true) :
    Admits .validation form b := by
  induction admits generalizing b with
  | branch found entered admits inductionHypothesis =>
      have choice := Form.regularChoice_iff.mp uniform
      have inBranches := lookup_eq_some_mem entered
      refine .branch (Dispatch.label?_of_similar (choice.suited inBranches) admits found similar first
        second) entered ?_
      exact inductionHypothesis similar first second
        (Form.isUniform_of_isRegular (choice.branchRegular _ inBranches))
  | whole fits _ inductionHypothesis =>
      refine .whole (fits.congr similar first second uniform) fun part membership => ?_
      obtain ⟨like, inFirst, similar⟩ := Form.part_of_similar similar second membership
      exact inductionHypothesis (part.1, like) inFirst similar
        (first.part (Form.isPartOf_of_mem_parts inFirst))
        (second.part (Form.isPartOf_of_mem_parts membership))
        (Form.isUniform_of_mem_parts uniform inFirst)

theorem number_readAlike {rule : NumberRule} {n m checked : Numeral} (first : n.IsOrdered)
    (second : m.IsOrdered) (equal : n.isEqual m = true) (accepted : rule.check n = .ok checked) :
    ReadAlike (.number rule) (.number n) (.number m) := by
  obtain ⟨x, rounded, _⟩ := NumberRule.check_place accepted
  rw [isEqual_iff first second] at equal
  obtain ⟨y, roundedToo, place⟩ := toDouble?_congr equal rounded
  refine .number rounded roundedToo ?_
  rw [Double.isEqual_eq, isEqual_iff (toDouble?_isOrdered first rounded)
    (toDouble?_isOrdered second roundedToo), place]

/-- Where similar parts are read alike, so are similar wholes. -/
theorem Form.Fits.readAlike (fits : form.Fits .validation a) (similar : Similar a b)
    (first : a.IsJson) (second : b.IsJson)
    (part : ∀ {inner x y}, (inner, x) ∈ form.parts a → y.IsPartOf b → Similar x y →
      ReadAlike inner x y) : ReadAlike form a b := by
  cases form with
  | text rule =>
      obtain ⟨content, rfl, _⟩ := fits
      cases similar
      exact .text
  | number rule =>
      obtain ⟨n, rfl, checked, accepted⟩ := fits
      cases similar with
      | number equal => exact number_readAlike first.node second.node equal accepted
  | literal choices =>
      obtain ⟨content, _, rfl⟩ := fits
      cases similar
      exact .literal
  | flag => exact .flag
  | anyJson => exact .anyJson similar
  | tuple positions distinct =>
      obtain ⟨xs, rfl, length, _⟩ := fits
      cases similar with
      | @list _ ys sameLength each =>
          refine .tuple sameLength fun i form x y position inXs inYs => ?_
          exact part (List.mem_of_getElem? (List.getElem?_zip_eq_some.mpr ⟨position, inXs⟩))
            (.item (List.mem_of_getElem? inYs) .self)
            (each (x, y) (List.mem_of_getElem? (List.getElem?_zip_eq_some.mpr ⟨inXs, inYs⟩)))
  | list item minLength unique =>
      obtain ⟨xs, rfl, _⟩ := fits
      cases similar with
      | @list _ ys sameLength each =>
          refine .list sameLength fun pair paired => ?_
          obtain ⟨inXs, inYs⟩ := List.of_mem_zip paired
          exact part (mem_parts_iff.mpr (.item inXs)) (.item inYs .self) (each pair paired)
  | dictionary key item =>
      obtain ⟨xs, rfl, _⟩ := fits
      cases similar with
      | @object _ ys sameKeys each =>
          refine .dictionary sameKeys fun name x y inXs inYs => ?_
          exact part (mem_parts_iff.mpr (.entry (lookupText_eq_some_mem inXs)))
            (.entry (lookupText_eq_some_mem inYs) .self) (each name x y inXs inYs)
  | choice dispatch branches => exact fits.elim
  | model name =>
      obtain ⟨xs, rfl, _⟩ := fits
      cases similar with
      | @object _ ys sameKeys each =>
          refine .model (fun field _ => isFilled_congr sameKeys each field.name)
            fun field inFields x y inXs inYs => ?_
          exact part (mem_parts_iff.mpr (.field inFields (lookupText_eq_some_mem inXs)))
            (.entry (lookupText_eq_some_mem inYs) .self) (each _ x y inXs inYs)

theorem Admits.readAlike (admits : Admits .validation form a) (similar : Similar a b)
    (first : a.IsJson) (second : b.IsJson) (uniform : form.isUniform = true) :
    ReadAlike form a b := by
  induction admits generalizing b with
  | branch found entered admits inductionHypothesis =>
      have choice := Form.regularChoice_iff.mp uniform
      have inBranches := lookup_eq_some_mem entered
      refine .branch found (Dispatch.label?_of_similar (choice.suited inBranches) admits found similar
        first second) entered ?_
      exact inductionHypothesis similar first second
        (Form.isUniform_of_isRegular (choice.branchRegular _ inBranches))
  | whole fits _ inductionHypothesis =>
      refine fits.readAlike similar first second fun inFirst inside similar => ?_
      exact inductionHypothesis (_, _) inFirst similar
        (first.part (Form.isPartOf_of_mem_parts inFirst)) (second.part inside)
        (Form.isUniform_of_mem_parts uniform inFirst)

end

/-! ### Documents -/

theorem entryForm_congr {a b : Value} (similar : Similar a b) : entryForm a = entryForm b := by
  cases similar <;> rfl

theorem validate_congr {a b : Value} (similar : Similar a b) (first : a.IsJson) (second : b.IsJson)
    (valid : validate a = []) : validate b = [] := by
  rw [first.valid_iff] at valid
  rw [second.valid_iff]
  obtain ⟨xs, rfl, inOrder⟩ := valid
  cases id similar with
  | @object _ ys sameKeys each =>
      refine ⟨ys, rfl, fun name y given => ?_⟩
      obtain ⟨x, found, like⟩ := lookupText_of_similar sameKeys each given
      have jsonX := first.entry (lookupText_eq_some_mem found)
      have jsonY := second.entry (lookupText_eq_some_mem given)
      have here := inOrder name x found
      rw [IsBlockInOrder] at here ⊢
      split
      next tokens =>
          rw [if_pos tokens] at here
          exact here.congr similar first second rfl
      next tokens =>
          rw [if_neg tokens] at here
          rw [← entryForm_congr like]
          exact ⟨here.1, here.2.congr like jsonX jsonY
            (Form.isUniform_of_isRegular (entryForm_isRegular x))⟩

/-- Of two JSON documents with one canonical text, both are valid or neither.  The same holds for every
form of the grammar, and of two values that pass a form, the results have one canonical text. -/
theorem check_respectsCanonicalText :
    (∀ a b : Value, a.IsJson → b.IsJson → a.canonicalText = b.canonicalText →
      (validate a = [] ↔ validate b = [])) ∧
    ∀ (form : Form) (a b : Value), form.IsOfGrammar → a.IsJson → b.IsJson →
      a.canonicalText = b.canonicalText →
        ((∃ result, a.check form = .ok result) ↔ ∃ result, b.check form = .ok result) ∧
        ∀ result other, a.check form = .ok result → b.check form = .ok other →
          result.canonicalText = other.canonicalText := by
  constructor
  · intro a b first second same
    have similar := (first.canonicalText_eq_iff_similar second).mp same
    exact ⟨validate_congr similar first second, validate_congr (similar.symm first second) second first⟩
  · intro form a b grammar first second same
    have uniform := grammar.isUniform
    have similar := (first.canonicalText_eq_iff_similar second).mp same
    have passes := first.passes_iff_of_uniform uniform
    have passesToo := second.passes_iff_of_uniform uniform
    refine ⟨?_, fun result other accepted acceptedToo => ?_⟩
    · change a.Passes form ↔ b.Passes form
      rw [passes, passesToo]
      exact ⟨fun admits => admits.congr similar first second uniform,
        fun admits => admits.congr (similar.symm first second) second first uniform⟩
    · obtain ⟨passed, rfl⟩ := Value.check_eq_ok_iff.mp accepted
      obtain ⟨passedToo, rfl⟩ := Value.check_eq_ok_iff.mp acceptedToo
      have admits := passes.mp passed
      rw [admits.text_eq_iff (passesToo.mp passedToo) first second uniform]
      exact admits.readAlike similar first second uniform

/-- A conditional animation, with integers. -/
def conditionalDocument : Value :=
  .object [("foo", .list [.object [
    ("predicate", .list [.object [("if", .text "bar"),
      ("then", .object [("gte", .list [.text "baz", .integer 1])])]]),
    ("default", .integer 1),
    ("options", .object [("delay", .integer 1)])]])]

/-- The same animation with its keys the other way around, and with doubles. -/
def turnedDocument : Value :=
  .object [("foo", .list [.object [
    ("options", .object [("delay", .double (.ofUnits false unitsPerOne 1))]),
    ("default", .double (.ofUnits false unitsPerOne 1)),
    ("predicate", .list [.object [
      ("then", .object [("gte", .list [.text "baz", .double (.ofUnits false unitsPerOne 1)])]),
      ("if", .text "bar")]])]])]

theorem conditionalDocument_isJson : conditionalDocument.IsJson := by decide

theorem turnedDocument_isJson : turnedDocument.IsJson := by decide +kernel

theorem check_turnedDocument : validate turnedDocument = [] ∧
    ∃ result other, conditionalDocument.check .animations = .ok result ∧
      turnedDocument.check .animations = .ok other ∧ result.canonicalText = other.canonicalText := by
  have similar : conditionalDocument.isSimilar turnedDocument = true := by decide +kernel
  have same : conditionalDocument.canonicalText = turnedDocument.canonicalText :=
    (conditionalDocument_isJson.canonicalText_eq_iff turnedDocument_isJson).mpr similar
  have grammar : Form.animations.IsOfGrammar :=
    @Form.IsOfGrammar.named "Animations" _ (by simp [Form.named])
  obtain ⟨documents, forms⟩ := check_respectsCanonicalText
  have valid : validate conditionalDocument = [] := by decide +kernel
  have noTokens : conditionalDocument.get? tokenImagesKey = none := rfl
  have admits := (validate_eq_nil_iff conditionalDocument_isJson noTokens).mp valid
  obtain ⟨passes, texts⟩ := forms .animations _ _ grammar conditionalDocument_isJson
    turnedDocument_isJson same
  obtain ⟨result, accepted⟩ := admits.passes conditionalDocument_isJson grammar.isUniform
  obtain ⟨other, acceptedToo⟩ := passes.mp ⟨result, accepted⟩
  exact ⟨(documents _ _ conditionalDocument_isJson turnedDocument_isJson same).mp valid,
    result, other, accepted, acceptedToo, texts result other accepted acceptedToo⟩

end AnimationGrammar
