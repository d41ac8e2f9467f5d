import AnimationGrammar.Proofs.Number.Monotone
import AnimationGrammar.Proofs.Validation.Numbers
import AnimationGrammar.Proofs.Validation.Results

/-!
Delays between repetitions.

An object that says how an effect is repeated may give a longest delay, and then has to give a shortest
one.  Validation refuses delays of which the longest is at most the shortest.  What is not a number is at
most nothing and nothing is at most it, so a shortest delay of that kind is not refused: delays that
validation takes are in order exactly when the shortest one is a number.
-/

namespace AnimationGrammar

open Numeral Outcome Value

/-- Where a longest delay is given, a shortest one is, and it is smaller. -/
def Value.DelaysOrdered (options : Value) : Prop :=
  ∀ most, options.get? "delayMax" = some most → ∃ a b,
    options.get? "delayMin" = some (.number a) ∧ most = .number b ∧ a.isLess b = true

/-! ### Comparing with what is not a number -/

theorem Double.isLess_notANumber (x : Double) : x.isLess .notANumber = false := by
  cases x <;> rfl

theorem Double.isAtMost_notANumber (x : Double) : x.isAtMost .notANumber = false := by
  cases x <;> rfl

theorem Double.isAtMost_eq_false_iff {x : Double} (ordered : x ≠ .notANumber) {y : Double} :
    x.isAtMost y = false ↔ y = .notANumber ∨ y.isLess x = true := by
  by_cases unordered : y = .notANumber
  · simp [unordered, isAtMost_notANumber]
  · have first : (Numeral.double x).IsOrdered := fun same => ordered (Numeral.double.inj same)
    have second : (Numeral.double y).IsOrdered := fun same => unordered (Numeral.double.inj same)
    rw [← Bool.not_eq_true, Double.isAtMost_iff first second, Double.isLess_eq,
      isLess_iff second first, not_le]
    simp [unordered]

theorem Numeral.notANumber_isLess (n : Numeral) :
    (Numeral.double .notANumber).isLess n = false := by
  cases n with
  | integer value => rfl
  | double x => cases x <;> rfl

theorem Numeral.rounded_notANumber_iff {n : Numeral} {x : Double} (rounded : n.toDouble? = some x) :
    x = .notANumber ↔ n = .double .notANumber := by
  cases n with
  | integer value =>
      rw [toDouble?, Double.ofInt?, Option.map_eq_some_iff] at rounded
      obtain ⟨magnitude, _, rfl⟩ := rounded
      simp
  | double value =>
      obtain rfl := Option.some.inj rounded
      simp

theorem NumberRule.check_within {rule : NumberRule} {n m : Numeral} (accepted : rule.check n = .ok m)
    {x : Double} (rounded : n.toDouble? = some x) : rule.bounds.failure? x = none := by
  rw [check] at accepted
  simp only [rounded] at accepted
  split at accepted
  · simp at accepted
  · assumption

theorem positiveNumber_ne_notANumber {n : Numeral} {x : Double}
    (passes : (Value.number n).Passes .positiveNumber) (rounded : n.toDouble? = some x) :
    x ≠ .notANumber := by
  obtain ⟨result, accepted⟩ := passes
  rw [Form.positiveNumber, Form.boundedNumber, check_atomic rfl, checkWhole_eq_ok_iff] at accepted
  obtain ⟨m, checked⟩ : Reading.validation.number _ n := by
    cases accepted with
    | number checked => exact ⟨_, checked⟩
  have within := NumberRule.check_within checked rounded
  have positive := (Bounds.failure?_eq_none_iff.mp within).2.2.2 _ rfl
  intro same
  rw [same, Double.isLess_notANumber] at positive
  cases positive

/-! ### What is made of delays -/

theorem lookup_of_numberField? {name : String} {fields : List (String × Value)} {n : Numeral}
    (found : numberField? name fields = some n) : fields.lookup name = some (.number n) := by
  unfold numberField? at found
  split at found
  next held =>
      rw [held, Option.some.inj found]
  · simp at found

/-- What validation makes of the delays of an object. -/
inductive TakesDelays (options result : Value) : Prop
  | none : options.get? "delayMax" = none → result.get? "delayMax" = none →
      TakesDelays options result
  | both {least most : Numeral} {y x : Double} :
      options.get? "delayMin" = some (.number least) →
      options.get? "delayMax" = some (.number most) →
      least.toDouble? = some y → most.toDouble? = some x →
      result.get? "delayMin" = some (.double y) → result.get? "delayMax" = some (.double x) →
      x ≠ .notANumber → (y = .notANumber ∨ y.isLess x = true) → TakesDelays options result

theorem takesDelays {options result : Value} (noRecord : options.isRecord = false)
    (accepted : options.check (.model .repeatOptions) = .ok result) :
    TakesDelays options result := by
  have passes : options.Passes (.model .repeatOptions) := ⟨result, accepted⟩
  obtain ⟨entries, rfl⟩ := passes.eq_mapping noRecord
  rw [check_model] at accepted
  obtain ⟨fits, _, met, rfl⟩ := assemble_entryOutcomes_eq_ok_iff.mp accepted
  have unfailed := met .orderedDelays List.mem_cons_self
  rw [ModelRule.failure?] at unfailed
  have regular := ModelName.rule_isRegular .repeatOptions .orderedDelays List.mem_cons_self
  rw [ModelRule.isRegular, List.all_eq_true] at regular
  have delay (fieldName : String) (among : fieldName ∈ ["delayMin", "delayMax"]) :=
    numberField_of_regular fits (regular fieldName among)
  rcases delay "delayMax" (by simp) with
    ⟨absentMax, _⟩ | ⟨most, x, max, roundedMax, gatheredMax⟩
  · have declared : "delayMax" ∈ repeatDefinition.fieldNames := by decide
    have dropped := (lookup_eq_none_iff fits declared).mpr (by simp [IsGiven, absentMax])
    exact .none absentMax dropped
  · rcases delay "delayMin" (by simp) with
      ⟨absentMin, gatheredMin⟩ | ⟨least, y, min, roundedMin, gatheredMin⟩
    · simp [gatheredMax, gatheredMin] at unfailed
    · simp only [gatheredMax, gatheredMin, ite_eq_right_iff, reduceCtorEq, imp_false,
        Bool.not_eq_true] at unfailed
      have longest : { name := "delayMax", form := .positiveNumber } ∈ repeatDefinition.fields := by
        simp [repeatDefinition]
      have positive : (Value.number most).Passes .positiveNumber :=
        (fits _ longest).passes _ max
      have ordered := positiveNumber_ne_notANumber positive roundedMax
      exact .both min max roundedMin roundedMax (lookup_of_numberField? gatheredMin)
        (lookup_of_numberField? gatheredMax) ordered
        ((Double.isAtMost_eq_false_iff ordered).mp unfailed)

/-! ### Delays in order -/

theorem delaysOrdered_of_absent {options : Value} (absent : options.get? "delayMax" = none) :
    options.DelaysOrdered := by
  intro most given
  rw [absent] at given
  cases given

theorem delaysOrdered_of_both {options : Value} {least most : Numeral}
    (min : options.get? "delayMin" = some (.number least))
    (max : options.get? "delayMax" = some (.number most)) :
    options.DelaysOrdered ↔ least.isLess most = true := by
  constructor
  · intro ordered
    obtain ⟨a, b, given, same, less⟩ := ordered _ max
    rw [min] at given
    cases given
    cases same
    exact less
  · intro less other given
    rw [max] at given
    exact ⟨least, most, min, (Option.some.inj given).symm, less⟩

/-- Both delays are compared alike before and after they are rounded. -/
theorem isLess_rounded_iff {least most : Numeral} {y x : Double} (roundedMin : least.toDouble? = some y)
    (roundedMax : most.toDouble? = some x) (number : x ≠ .notANumber)
    (ordered : y = .notANumber ∨ y.isLess x = true) :
    (least.isLess most = true ↔ least ≠ .double .notANumber) ∧
      ((Numeral.double y).isLess (.double x) = true ↔ least ≠ .double .notANumber) := by
  by_cases unordered : least = .double .notANumber
  · have roundedToo := (rounded_notANumber_iff roundedMin).mpr unordered
    simp [unordered, roundedToo, notANumber_isLess]
  · have first : least.IsOrdered := unordered
    have second : most.IsOrdered := mt (rounded_notANumber_iff roundedMax).mpr number
    have less : y.isLess x = true :=
      ordered.resolve_left (mt (rounded_notANumber_iff roundedMin).mp unordered)
    have lessToo := isLess_of_rounded first second roundedMin roundedMax less
    rw [← Double.isLess_eq]
    simp [less, lessToo, unordered]

/-- Delays that validation takes are in order, as they are given and as they are validated, exactly when
the shortest one is a number where the longest is given. -/
theorem delaysOrdered_iff {options result : Value} (noRecord : options.isRecord = false)
    (accepted : options.check (.model .repeatOptions) = .ok result) :
    ((options.get? "delayMax").isSome = true → (options.get? "delayMin").isSome = true) ∧
      (options.DelaysOrdered ↔
        options.get? "delayMax" = none ∨ options.get? "delayMin" ≠ some (.double .notANumber)) ∧
      (result.DelaysOrdered ↔
        options.get? "delayMax" = none ∨ options.get? "delayMin" ≠ some (.double .notANumber)) := by
  cases takesDelays noRecord accepted with
  | none absent dropped =>
      simp [absent, delaysOrdered_of_absent absent, delaysOrdered_of_absent dropped]
  | both min max roundedMin roundedMax checkedMin checkedMax number ordered =>
      obtain ⟨given, made⟩ := isLess_rounded_iff roundedMin roundedMax number ordered
      rw [delaysOrdered_of_both min max, delaysOrdered_of_both checkedMin checkedMax, given, made]
      simp [min, max]

/-- Delays of which the shortest is below all numbers. -/
def unboundedDelays : Value :=
  .object [("count", .integer 3), ("delayMin", .double (.infinite true)), ("delayMax", .integer 5)]

theorem unboundedDelays_ordered :
    unboundedDelays.isRecord = false ∧
      unboundedDelays.check (.model .repeatOptions) =
        .ok (unboundedDelays.checked (.model .repeatOptions)) ∧
      unboundedDelays.DelaysOrdered := by
  have noRecord : unboundedDelays.isRecord = false := rfl
  have passes : unboundedDelays.Passes (.model .repeatOptions) := by decide +kernel
  obtain ⟨_, ordered, _⟩ := delaysOrdered_iff noRecord passes.check_eq
  refine ⟨noRecord, passes.check_eq, ordered.mpr (.inr ?_)⟩
  intro same
  cases same

/-- Delays of which the shortest is not a number. -/
def incomparableDelays : Value :=
  .object [("count", .integer 1), ("delayMin", .double .notANumber), ("delayMax", .integer 5)]

/-- Validation takes delays that are not in order. -/
theorem not_delaysOrdered_notANumber :
    incomparableDelays.Passes (.model .repeatOptions) ∧ ¬ incomparableDelays.DelaysOrdered := by
  constructor
  · decide +kernel
  · intro ordered
    obtain ⟨a, b, given, same, less⟩ := ordered (.integer 5) rfl
    cases given
    rw [notANumber_isLess] at less
    cases less

end AnimationGrammar
