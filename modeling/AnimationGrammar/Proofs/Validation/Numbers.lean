import AnimationGrammar.Proofs.Validation.Passing
import AnimationGrammar.Proofs.Schema.Places

/-!
Numbers as validation sees them.

Validation rounds a number to a double before it looks at the bounds of its rule.  The bounds of the
grammar are small integers, so a number is on the same side of them as its rounding: what validation
asks of a number beyond its rule is only that there is a double near it.
-/

namespace AnimationGrammar

open Numeral

theorem Double.isAtMost_iff {x y : Double} (first : (double x).IsOrdered)
    (second : (double y).IsOrdered) :
    x.isAtMost y = true ↔ (double x).place ≤ (double y).place := by
  rw [isAtMost, Bool.or_eq_true, isLess_eq, isEqual_eq, isLess_iff first second,
    isEqual_iff first second, le_iff_lt_or_eq]

theorem Double.isZero_iff {x : Double} (ordered : (double x).IsOrdered) :
    x.isZero = true ↔ (double x).place = (integer 0).place := by
  have zero : (double Double.zero).place = (integer 0).place := by
    simp only [place, Double.zero, Magnitude.zero, signed]
    generalize unitsPerOne = scale
    simp
  rw [isZero, isEqual_eq, isEqual_iff ordered (by simp [IsOrdered, Double.zero]), zero]

theorem Numeral.exactLimit {limit : Numeral} (exact : limit.isExactLimit = true) :
    ∃ value : ℤ, limit = integer value ∧ value.natAbs < exactIntegers ∧
      (double limit.limit).place = (integer value).place ∧ (double limit.limit).IsOrdered := by
  cases limit with
  | integer value =>
      rw [isExactLimit, decide_eq_true_eq] at exact
      obtain ⟨x, rounded, same⟩ := toDouble?_small exact.le
      have limit : (integer value).limit = x := by
        rw [toDouble?] at rounded
        rw [Numeral.limit, rounded, Option.getD_some]
      rw [limit]
      exact ⟨value, rfl, exact, same, toDouble?_isOrdered (by simp [IsOrdered]) rounded⟩
  | double value => simp [isExactLimit] at exact

/-- A number passes bounds when its rounding is on the right side of every limit. -/
theorem Bounds.failure?_eq_none_iff {bounds : Bounds} {x : Double} :
    bounds.failure? x = none ↔
      (∀ limit ∈ bounds.atMost, x.isAtMost limit.limit = true) ∧
        (∀ limit ∈ bounds.below, x.isLess limit.limit = true) ∧
        (∀ limit ∈ bounds.atLeast, limit.limit.isAtMost x = true) ∧
        ∀ limit ∈ bounds.above, limit.limit.isLess x = true := by
  simp [failure?, Option.or_eq_none_iff, Option.bind_eq_none_iff]

section
variable {n : Numeral} {x : Double}

theorem isAtMost_limit_iff (ordered : n.IsOrdered) (rounded : n.toDouble? = some x) {limit : Numeral}
    (exact : limit.isExactLimit = true) :
    x.isAtMost limit.limit = true ↔ limit.isLess n = false := by
  obtain ⟨value, rfl, small, same, limitOrdered⟩ := exactLimit exact
  rw [Double.isAtMost_iff (toDouble?_isOrdered ordered rounded) limitOrdered, same, ← not_lt,
    lt_rounded_iff rounded small, ← isLess_iff (by simp [IsOrdered]) ordered, Bool.not_eq_true]

theorem isLess_limit_iff (ordered : n.IsOrdered) (rounded : n.toDouble? = some x) {limit : Numeral}
    (exact : limit.isExactLimit = true) :
    x.isLess limit.limit = true ↔ n.isLess limit = true := by
  obtain ⟨value, rfl, small, same, limitOrdered⟩ := exactLimit exact
  rw [Double.isLess_eq, isLess_iff (toDouble?_isOrdered ordered rounded) limitOrdered, same,
    rounded_lt_iff rounded small, isLess_iff ordered (by simp [IsOrdered])]

theorem limit_isAtMost_iff (ordered : n.IsOrdered) (rounded : n.toDouble? = some x) {limit : Numeral}
    (exact : limit.isExactLimit = true) :
    limit.limit.isAtMost x = true ↔ n.isLess limit = false := by
  obtain ⟨value, rfl, small, same, limitOrdered⟩ := exactLimit exact
  rw [Double.isAtMost_iff limitOrdered (toDouble?_isOrdered ordered rounded), same, ← not_lt,
    rounded_lt_iff rounded small, ← isLess_iff ordered (by simp [IsOrdered]), Bool.not_eq_true]

theorem limit_isLess_iff (ordered : n.IsOrdered) (rounded : n.toDouble? = some x) {limit : Numeral}
    (exact : limit.isExactLimit = true) :
    limit.limit.isLess x = true ↔ limit.isLess n = true := by
  obtain ⟨value, rfl, small, same, limitOrdered⟩ := exactLimit exact
  rw [Double.isLess_eq, isLess_iff limitOrdered (toDouble?_isOrdered ordered rounded), same,
    lt_rounded_iff rounded small, isLess_iff (by simp [IsOrdered]) ordered]

theorem Bounds.failure?_eq_none_iff_of_exact {bounds : Bounds}
    (exact : ∀ limit ∈ bounds.limits, limit.isExactLimit = true) (ordered : n.IsOrdered)
    (rounded : n.toDouble? = some x) : bounds.failure? x = none ↔ bounds.Admit n := by
  simp only [limits, List.mem_append, Option.mem_toList] at exact
  rw [failure?_eq_none_iff]
  have atMost : (∀ limit ∈ bounds.atMost, x.isAtMost limit.limit = true) ↔
      ∀ limit ∈ bounds.atMost, limit.isLess n = false :=
    forall₂_congr fun limit given =>
      isAtMost_limit_iff ordered rounded (exact limit (.inl (.inl (.inl given))))
  have below : (∀ limit ∈ bounds.below, x.isLess limit.limit = true) ↔
      ∀ limit ∈ bounds.below, n.isLess limit = true :=
    forall₂_congr fun limit given =>
      isLess_limit_iff ordered rounded (exact limit (.inl (.inl (.inr given))))
  have atLeast : (∀ limit ∈ bounds.atLeast, limit.limit.isAtMost x = true) ↔
      ∀ limit ∈ bounds.atLeast, n.isLess limit = false :=
    forall₂_congr fun limit given =>
      limit_isAtMost_iff ordered rounded (exact limit (.inl (.inr given)))
  have above : (∀ limit ∈ bounds.above, limit.limit.isLess x = true) ↔
      ∀ limit ∈ bounds.above, limit.isLess n = true :=
    forall₂_congr fun limit given =>
      limit_isLess_iff ordered rounded (exact limit (.inr given))
  rw [atMost, below, atLeast, above]
  constructor
  · rintro ⟨atMost, below, atLeast, above⟩
    exact ⟨atMost, below, atLeast, above⟩
  · rintro ⟨atMost, below, atLeast, above⟩
    exact ⟨atMost, below, atLeast, above⟩

end

/-- Validation takes a number when schemas do and there is a double near it. -/
theorem number_validation_iff {rule : NumberRule} (regular : (Form.number rule).isRegular = true)
    {n : Numeral} (ordered : n.IsOrdered) :
    Reading.validation.number rule n ↔
      n.toDouble?.isSome = true ∧ Reading.schema.number rule n := by
  simp only [Form.isRegular, List.all_eq_true] at regular
  unfold Reading.validation Reading.schema NumberRule.check
  cases rounded : n.toDouble? with
  | none => simp [rounded]
  | some x =>
      have xOrdered := toDouble?_isOrdered ordered rounded
      have bounds := Bounds.failure?_eq_none_iff_of_exact regular ordered rounded
      have zero : x.isZero = n.isEqual (.integer 0) := by
        rw [Bool.eq_iff_iff, Double.isZero_iff xOrdered, isEqual_iff ordered (by simp [IsOrdered]),
          rounded_eq_iff rounded (by decide)]
      have whole := rounded_toInt? rounded
      simp only [rounded, Option.isSome_some, true_and, ← bounds, ← zero, ← whole]
      cases rule.bounds.failure? x with
      | some cause => simp
      | none =>
          cases x.isZero <;> cases rule.nonZero <;> cases rule.whole <;>
            cases x.toInt? <;> simp

/-! ### Equal numbers -/

section
variable {n m : Numeral} (first : n.IsOrdered) (second : m.IsOrdered) (equal : n.isEqual m = true)
include first second equal

theorem Bounds.Admit.congr {bounds : Bounds}
    (exact : ∀ limit ∈ bounds.limits, limit.isExactLimit = true) (within : bounds.Admit n) :
    bounds.Admit m := by
  rw [isEqual_iff first second] at equal
  have ordered {limit : Numeral} (given : limit ∈ bounds.limits) : limit.IsOrdered := by
    obtain ⟨value, rfl, _⟩ := exactLimit (exact limit given)
    simp [IsOrdered]
  have below {limit : Numeral} (given : limit ∈ bounds.limits) :
      n.isLess limit = m.isLess limit := by
    rw [Bool.eq_iff_iff, isLess_iff first (ordered given), isLess_iff second (ordered given), equal]
  have above {limit : Numeral} (given : limit ∈ bounds.limits) :
      limit.isLess n = limit.isLess m := by
    rw [Bool.eq_iff_iff, isLess_iff (ordered given) first, isLess_iff (ordered given) second, equal]
  simp only [limits, List.mem_append, Option.mem_toList] at below above
  exact {
    atMost := fun limit given => above (.inl (.inl (.inl given))) ▸ within.atMost limit given
    below := fun limit given => below (.inl (.inl (.inr given))) ▸ within.below limit given
    atLeast := fun limit given => below (.inl (.inr given)) ▸ within.atLeast limit given
    above := fun limit given => above (.inr given) ▸ within.above limit given }

theorem number_validation_congr {rule : NumberRule}
    (regular : (Form.number rule).isRegular = true) (taken : Reading.validation.number rule n) :
    Reading.validation.number rule m := by
  obtain ⟨rounded, whole, within, nonZero⟩ := (number_validation_iff regular first).mp taken
  have same := (isEqual_iff first second).mp equal
  obtain ⟨x, rounded⟩ := Option.isSome_iff_exists.mp rounded
  obtain ⟨y, roundedToo, _⟩ := toDouble?_congr same rounded
  have zero : m.isEqual (.integer 0) = n.isEqual (.integer 0) := by
    rw [Bool.eq_iff_iff, isEqual_iff second (by simp [IsOrdered]),
      isEqual_iff first (by simp [IsOrdered]), same]
  simp only [Form.isRegular, List.all_eq_true] at regular
  refine (number_validation_iff (by simpa [Form.isRegular] using regular) second).mpr ⟨?_, ?_, ?_, ?_⟩
  · rw [roundedToo, Option.isSome_some]
  · rwa [← isSome_toInt?_congr first second same]
  · exact within.congr first second equal regular
  · rwa [zero]

end

end AnimationGrammar
