import AnimationGrammar.Proofs.Grammar.Reach
import AnimationGrammar.Proofs.Validation.Numbers
import AnimationGrammar.Proofs.Value.Invariant
import Mathlib.Data.List.TakeWhile

/-!
Where validation and schemas part.

A place that fits a form for validation fits it for schemas, unless the form is a flag and the place is
the number one.  The other way around three things are missing: integers that doubles cannot hold, and
the order of the delays.
-/

namespace AnimationGrammar

open Numeral

namespace Value

def integer? : Value → Option ℤ
  | .number (.integer n) => some n
  | _ => none

def isOne : Value → Bool
  | .number n => n.isEqual (.integer 1)
  | _ => false

/-- Whether doubles hold every integer in a value, and all integers up to it. -/
def HasExactIntegers (value : Value) : Prop :=
  ∀ part, IsPartOf part value → ∀ n ∈ part.integer?, n.natAbs ≤ exactIntegers

instance decidableHasExactIntegers (value : Value) : Decidable value.HasExactIntegers :=
  inferInstanceAs
    (Decidable (∀ part, IsPartOf part value → ∀ n ∈ part.integer?, n.natAbs ≤ exactIntegers))

theorem HasExactIntegers.part {part value : Value} (exact : value.HasExactIntegers)
    (inside : part.IsPartOf value) : part.HasExactIntegers :=
  fun inner reached => exact inner (reached.trans inside)

theorem toDouble?_place {n : Numeral} (exact : (Value.number n).HasExactIntegers) :
    ∃ x, n.toDouble? = some x ∧ (Numeral.double x).place = n.place := by
  cases n with
  | integer value => exact toDouble?_small (exact _ .self value rfl)
  | double x => exact ⟨x, rfl, rfl⟩

theorem IsJson.hasLongNumber_eq_false {value : Value} (json : value.IsJson)
    (exact : value.HasExactIntegers) : value.hasLongNumber = false := by
  induction value, json using jsonInduction with
  | atom a json =>
      cases a with
      | number n =>
          obtain ⟨x, rounded, _⟩ := toDouble?_place exact
          exact isLongNumber_of_rounded rounded
      | _ => rfl
  | list items json inductionHypothesis =>
      apply hasLongNumber_list
      intro item membership
      exact inductionHypothesis item membership (exact.part (.item membership .self))
  | mapping entries json inductionHypothesis =>
      apply hasLongNumber_mapping
      intro entry membership
      exact ⟨json.key_asText membership,
        inductionHypothesis entry membership (exact.part (.entry membership .self))⟩

end Value

open Value hiding double

/-! ### Items that differ -/

theorem repetition?_of_short {items : List Value}
    (short : ∀ item ∈ items, item.hasLongNumber = false) :
    repetition? items = if hasDuplicates items then some .itemsRepeat else none := by
  rw [repetition?, findDuplicates_of_short short]
  cases hasDuplicates items <;> rfl

theorem repetition?_eq_none_iff {items : List Value} :
    repetition? items = none ↔
      hasDuplicates items = false ∧ ∀ item ∈ items, item.hasLongNumber = false := by
  rw [← findDuplicates_eq_false_iff, repetition?]
  cases findDuplicates items with
  | error problem => cases problem; simp
  | ok found => cases found <;> simp

/-- The items of a JSON list that differ for validation differ for schemas. -/
theorem unique_schema_of_validation {items : List Value} (each : ∀ item ∈ items, item.IsJson)
    (unique : Reading.validation.unique items) : Reading.schema.unique items :=
  (hasDuplicates_eq_false_iff each).mp (repetition?_eq_none_iff.mp unique).1

theorem unique_validation_of_schema {items : List Value} (each : ∀ item ∈ items, item.IsJson)
    (exact : ∀ item ∈ items, item.HasExactIntegers) (unique : Reading.schema.unique items) :
    Reading.validation.unique items := by
  apply repetition?_eq_none_iff.mpr
  refine ⟨(hasDuplicates_eq_false_iff each).mpr unique, fun item membership => ?_⟩
  exact (each item membership).hasLongNumber_eq_false (exact item membership)

theorem distinct_schema_iff {a b : Numeral} :
    Reading.schema.distinct [.number a, .number b] ↔ a.isEqual b = false := by
  change List.Pairwise (fun a b => a.isSimilar b = false) [Value.number a, Value.number b] ↔ _
  rw [List.pairwise_pair, isSimilar, Atom.isSimilar]

/-- Numbers have different roundings when validation takes them for a pair that differs. -/
theorem distinct_schema_of_validation {a b : Numeral} {x y : Double} (first : a.IsOrdered)
    (second : b.IsOrdered) (roundedA : a.toDouble? = some x) (roundedB : b.toDouble? = some y)
    (distinct : Reading.validation.distinct [.number a, .number b]) :
    Reading.schema.distinct [.number a, .number b] := by
  have differ := distinct a b [] x y rfl roundedA roundedB
  rw [distinct_schema_iff]
  by_contra equal
  rw [Bool.not_eq_false, isEqual_iff first second] at equal
  have same := rounded_congr equal roundedA roundedB
  rw [← isEqual_iff (toDouble?_isOrdered first roundedA) (toDouble?_isOrdered second roundedB),
    ← Double.isEqual_eq, differ] at same
  exact Bool.false_ne_true same

theorem distinct_validation_of_schema {a b : Numeral} (first : a.IsOrdered) (second : b.IsOrdered)
    (exactA : (Value.number a).HasExactIntegers) (exactB : (Value.number b).HasExactIntegers)
    (distinct : Reading.schema.distinct [.number a, .number b]) :
    Reading.validation.distinct [.number a, .number b] := by
  intro c d rest x y same roundedC roundedD
  simp only [List.cons.injEq, Value.atom.injEq, Atom.number.injEq] at same
  obtain ⟨rfl, rfl, _⟩ := same
  have differ := distinct_schema_iff.mp distinct
  obtain ⟨_, roundedA, placeA⟩ := toDouble?_place exactA
  obtain ⟨_, roundedB, placeB⟩ := toDouble?_place exactB
  obtain rfl := Option.some.inj (roundedA.symm.trans roundedC)
  obtain rfl := Option.some.inj (roundedB.symm.trans roundedD)
  by_contra equal
  rw [Bool.not_eq_false, Double.isEqual_eq, isEqual_iff (toDouble?_isOrdered first roundedC)
    (toDouble?_isOrdered second roundedD), placeA, placeB, ← isEqual_iff first second, differ] at equal
  exact Bool.false_ne_true equal

/-! ### One place -/

theorem ModelName.eq_repeatOptions {name : ModelName}
    (ordered : ModelRule.orderedDelays ∈ name.definition.rules) : name = .repeatOptions := by
  revert name
  suffices ∀ name ∈ ModelName.all, ModelRule.orderedDelays ∈ name.definition.rules →
      name = .repeatOptions from fun {name} => this name name.mem_all
  decide +kernel

theorem Admits.plainNumber {reading : Reading} {value : Value}
    (admits : Admits reading (.number {}) value) :
    ∃ n, value = .number n ∧ reading.number {} n :=
  ((admits_whole_iff rfl).mp admits).1

theorem Form.pair_of_distinct {reading : Reading} {positions : List Form} {items : List Value}
    (regular : (Form.tuple positions true).isRegular = true)
    (length : items.length = positions.length)
    (parts : ∀ part ∈ (Form.tuple positions true).parts (.list items),
      Admits reading part.1 part.2) :
    ∃ a b, items = [.number a, .number b] ∧ reading.number {} a ∧ reading.number {} b := by
  simp only [isRegular, Bool.not_true, Bool.false_or, Bool.and_eq_true, beq_iff_eq,
    List.all_eq_true] at regular
  obtain ⟨_, two, plain⟩ := regular
  obtain ⟨p, q, rfl⟩ := List.length_eq_two.mp two
  obtain rfl := eq_number_of_isPlainNumber (plain p (by simp))
  obtain rfl := eq_number_of_isPlainNumber (plain q (by simp))
  obtain ⟨first, second, rfl⟩ := List.length_eq_two.mp (length.trans two)
  obtain ⟨a, rfl, takenA⟩ := (parts (.number {}, first) (by simp [Form.parts])).plainNumber
  obtain ⟨b, rfl, takenB⟩ := (parts (.number {}, second) (by simp [Form.parts])).plainNumber
  exact ⟨a, b, rfl, takenA, takenB⟩

theorem number_plain_isRegular : (Form.number {}).isRegular = true := rfl

/-- What fits for validation fits for schemas, unless it is a flag written as a number. -/
theorem Form.Fits.toSchema {form : Form} {place : Value} (json : place.IsJson)
    (uniform : form.isUniform = true) (flag : form = .flag → place = .boolean true)
    (fits : form.Fits .validation place)
    (parts : ∀ part ∈ form.parts place, Admits .validation part.1 part.2) :
    form.Fits .schema place := by
  cases form with
  | text rule => exact fits
  | number rule =>
      obtain ⟨n, rfl, taken⟩ := fits
      exact ⟨n, rfl, ((number_validation_iff uniform json.node).mp taken).2⟩
  | literal choices => exact fits
  | flag => exact flag rfl
  | anyJson => trivial
  | tuple positions distinct =>
      obtain ⟨items, rfl, length, differ⟩ := fits
      refine ⟨items, rfl, length, ?_⟩
      rintro rfl
      obtain ⟨a, b, rfl, takenA, takenB⟩ := pair_of_distinct uniform length parts
      have inA : Value.number a ∈ [Value.number a, Value.number b] := by simp
      have inB : Value.number b ∈ [Value.number a, Value.number b] := by simp
      have orderedA := (json.item inA).node
      have orderedB := (json.item inB).node
      have roundedA := ((number_validation_iff number_plain_isRegular orderedA).mp takenA).1
      have roundedB := ((number_validation_iff number_plain_isRegular orderedB).mp takenB).1
      obtain ⟨x, roundedA⟩ := Option.isSome_iff_exists.mp roundedA
      obtain ⟨y, roundedB⟩ := Option.isSome_iff_exists.mp roundedB
      exact distinct_schema_of_validation orderedA orderedB roundedA roundedB (differ rfl)
  | list item minLength unique =>
      obtain ⟨items, rfl, enough, differ⟩ := fits
      refine ⟨items, rfl, enough, fun needed => ?_⟩
      exact unique_schema_of_validation (fun item membership => json.item membership) (differ needed)
  | dictionary key item => exact fits
  | choice dispatch branches => exact fits.elim
  | model name =>
      obtain ⟨entries, rfl, known, given, exclusive, met⟩ := fits
      refine ⟨entries, rfl, known, given, exclusive, fun rule membership => ?_⟩
      have isMet := met rule membership
      cases rule with
      | someKey => exact isMet
      | someDimension => exact isMet
      | orderedDelays => exact ⟨isMet.1, trivial⟩

/-- What fits for schemas fits for validation, as far as integers are exact and delays in order. -/
theorem Form.Fits.toValidation {form : Form} {place : Value} (json : place.IsJson)
    (exact : place.HasExactIntegers) (uniform : form.isUniform = true)
    (delays : form = .model .repeatOptions → ∀ options, place = .mapping options →
      Reading.validation.ordered options)
    (fits : form.Fits .schema place)
    (parts : ∀ part ∈ form.parts place, Admits .schema part.1 part.2) :
    form.Fits .validation place := by
  cases form with
  | text rule => exact fits
  | number rule =>
      obtain ⟨n, rfl, taken⟩ := fits
      obtain ⟨x, rounded, _⟩ := toDouble?_place exact
      refine ⟨n, rfl, (number_validation_iff uniform json.node).mpr ⟨?_, taken⟩⟩
      rw [rounded, Option.isSome_some]
  | literal choices => exact fits
  | flag => exact .inl fits
  | anyJson => trivial
  | tuple positions distinct =>
      obtain ⟨items, rfl, length, differ⟩ := fits
      refine ⟨items, rfl, length, ?_⟩
      rintro rfl
      obtain ⟨a, b, rfl, _, _⟩ := pair_of_distinct uniform length parts
      have inA : Value.number a ∈ [Value.number a, Value.number b] := by simp
      have inB : Value.number b ∈ [Value.number a, Value.number b] := by simp
      exact distinct_validation_of_schema (json.item inA).node (json.item inB).node
        (exact.part (.item inA .self)) (exact.part (.item inB .self)) (differ rfl)
  | list item minLength unique =>
      obtain ⟨items, rfl, enough, differ⟩ := fits
      refine ⟨items, rfl, enough, fun needed => ?_⟩
      exact unique_validation_of_schema (fun item membership => json.item membership)
        (fun item membership => exact.part (.item membership .self)) (differ needed)
  | dictionary key item => exact fits
  | choice dispatch branches => exact fits.elim
  | model name =>
      obtain ⟨entries, rfl, known, given, exclusive, met⟩ := fits
      refine ⟨entries, rfl, known, given, exclusive, fun rule membership => ?_⟩
      have isMet := met rule membership
      cases rule with
      | someKey => exact isMet
      | someDimension => exact isMet
      | orderedDelays =>
          obtain rfl := ModelName.eq_repeatOptions membership
          exact ⟨isMet.1, delays rfl entries rfl⟩

/-! ### Whole values -/

section
variable {form : Form} {value : Value}

/-- What validation admits is admitted by schemas exactly when every flag in it is the value true. -/
theorem Admits.toSchema_iff (json : value.IsJson) (uniform : form.isUniform = true)
    (admits : Admits .validation form value) :
    Admits .schema form value ↔
      ∀ place, Visits form value .flag place → place = .boolean true := by
  constructor
  · intro admitted place visits
    exact admitted.fits visits
  · intro flags
    refine admits.change fun inner place visits fits parts => ?_
    apply fits.toSchema (json.part visits.isPartOf) (visits.isUniform uniform) ?_ parts
    rintro rfl
    exact flags place visits

/-- Where no part is the number one, every flag that validation admits is the value true. -/
theorem Admits.flags_true (admits : Admits .validation form value)
    (noOne : ∀ part, IsPartOf part value → part.isOne = false) :
    ∀ place, Visits form value .flag place → place = .boolean true := by
  intro place visits
  rcases admits.fits visits with isTrue | ⟨n, rfl, one⟩
  · exact isTrue
  · have none := noOne _ visits.isPartOf
    rw [isOne, one] at none
    simp at none

/-- What schemas admit is admitted by validation, as far as integers are exact and delays in order. -/
theorem Admits.toValidation (json : value.IsJson) (exact : value.HasExactIntegers)
    (uniform : form.isUniform = true)
    (delays : ∀ options, Visits form value (.model .repeatOptions) (.mapping options) →
      Reading.validation.ordered options)
    (admits : Admits .schema form value) : Admits .validation form value := by
  refine admits.change fun inner place visits fits parts => ?_
  have inside := visits.isPartOf
  apply fits.toValidation (json.part inside) (exact.part inside) (visits.isUniform uniform) ?_ parts
  rintro rfl options rfl
  exact delays options visits

end

def Value.repeatDelays? : Value → Option (Numeral × Numeral)
  | .mapping entries =>
      match lookupText repeatsKey entries with
      | some (.mapping options) =>
          match lookupText "delayMin" options, lookupText "delayMax" options with
          | some (.number least), some (.number most) => some (least, most)
          | _, _ => none
      | _ => none
  | _ => none

/-- Whether the delays under every key for repetition are in order. -/
def Value.RepeatsInOrder (value : Value) : Prop :=
  ∀ part, IsPartOf part value → ∀ delays ∈ part.repeatDelays?, delays.1.isLess delays.2 = true

instance Value.decidableRepeatsInOrder (value : Value) : Decidable value.RepeatsInOrder :=
  inferInstanceAs (Decidable
    (∀ part, IsPartOf part value → ∀ delays ∈ part.repeatDelays?, delays.1.isLess delays.2 = true))

theorem ordered_of_isLess {options : List (Atom × Value)} (json : (Value.mapping options).IsJson)
    (exact : (Value.mapping options).HasExactIntegers)
    (inOrder : ∀ least most, lookupText "delayMin" options = some (.number least) →
      lookupText "delayMax" options = some (.number most) → least.isLess most = true) :
    Reading.validation.ordered options := by
  intro most least y x givenMost givenLeast roundedMost roundedLeast
  have inMost := lookupText_eq_some_mem givenMost
  have inLeast := lookupText_eq_some_mem givenLeast
  have orderedMost := (json.entry inMost).node
  have orderedLeast := (json.entry inLeast).node
  obtain ⟨_, exactMost, placeMost⟩ := toDouble?_place (exact.part (.entry inMost .self))
  obtain ⟨_, exactLeast, placeLeast⟩ := toDouble?_place (exact.part (.entry inLeast .self))
  obtain rfl := Option.some.inj (exactMost.symm.trans roundedMost)
  obtain rfl := Option.some.inj (exactLeast.symm.trans roundedLeast)
  have less := inOrder least most givenLeast givenMost
  rw [isLess_iff orderedLeast orderedMost, ← placeLeast, ← placeMost, ← not_le,
    ← Double.isAtMost_iff (toDouble?_isOrdered orderedMost roundedMost)
      (toDouble?_isOrdered orderedLeast roundedLeast), Bool.not_eq_true] at less
  exact less

theorem Visits.ordered {form : Form} {value : Value} {options : List (Atom × Value)}
    (visits : Visits form value (.model .repeatOptions) (.mapping options)) (json : value.IsJson)
    (exact : value.HasExactIntegers) (inOrder : value.RepeatsInOrder)
    (whole : form.lacksRepetition = true) : Reading.validation.ordered options := by
  rcases visits.repetition rfl (Form.repeatsWhole_of_lacksRepetition whole) with
    ⟨entries, inside, given⟩ | ⟨_, found⟩
  · have found := (lookupText_eq_some_iff (json.part inside).keysDiffer).mpr given
    apply ordered_of_isLess (json.part visits.isPartOf) (exact.part visits.isPartOf)
    intro least most givenLeast givenMost
    apply inOrder _ inside (least, most)
    simp [repeatDelays?, found, givenLeast, givenMost]
  · rw [whole] at found
    simp at found

end AnimationGrammar
