import AnimationGrammar.Number.Decimal
import AnimationGrammar.Proofs.Number.Rounding
import Mathlib.Tactic.IntervalCases

/-!
Doubles and their shortest decimals.

The shortest decimal reads back as the magnitude that it was found for, so no two magnitudes share one.
Zeros that are put behind its digits do not change what a decimal stands for.
-/

namespace AnimationGrammar

theorem ofDigitChars_decimalDigits (n : Nat) : Nat.ofDigitChars 10 (decimalDigits n) 0 = n :=
  Nat.ofDigitChars_ten_toDigits

theorem decimalDigits_injective {n m : Nat} (same : decimalDigits n = decimalDigits m) : n = m := by
  rw [← ofDigitChars_decimalDigits n, same, ofDigitChars_decimalDigits]

theorem isDigit_of_mem_decimalDigits {n : Nat} {c : Char} (membership : c ∈ decimalDigits n) :
    c.isDigit = true :=
  Nat.isDigit_of_mem_toDigits (by decide) (by decide) membership

theorem decimalDigits_ne_nil (n : Nat) : decimalDigits n ≠ [] := Nat.toDigits_ne_nil

theorem digitCount_le_iff {n count : Nat} (positive : 0 < count) :
    digitCount n ≤ count ↔ n < 10 ^ count :=
  Nat.length_toDigits_le_iff (by decide) positive

theorem head_decimalDigits {n : Nat} (positive : 0 < n) :
    ∃ first rest, decimalDigits n = first :: rest ∧ first.isDigit = true ∧ first ≠ '0' := by
  induction n using Nat.strongRecOn with
  | ind n inductionHypothesis =>
      rcases Nat.lt_or_ge n 10 with small | large
      · refine ⟨n.digitChar, [], Nat.toDigits_of_lt_base small, ?_, ?_⟩ <;>
          interval_cases n <;> decide
      · obtain ⟨first, rest, digits, digit, nonzero⟩ :=
          inductionHypothesis (n / 10) (by omega) (by omega)
        refine ⟨first, rest ++ [(n % 10).digitChar], ?_, digit, nonzero⟩
        rw [decimalDigits, Nat.toDigits_of_base_le (by decide) large, ← List.cons_append, ← digits,
          decimalDigits]

theorem decimalDigits_mul_pow {n : Nat} (positive : 0 < n) (places : Nat) :
    decimalDigits (n * 10 ^ places) = decimalDigits n ++ List.replicate places '0' := by
  induction places with
  | zero => rw [Nat.pow_zero, Nat.mul_one, List.replicate_zero, List.append_nil]
  | succ places inductionHypothesis =>
      have scaled : n * 10 ^ (places + 1) = n * 10 ^ places * 10 := by rw [Nat.pow_succ]; ring
      have large : 10 ≤ n * 10 ^ places * 10 :=
        Nat.le_mul_of_pos_left 10 (Nat.mul_pos positive (Nat.pow_pos (by decide)))
      rw [scaled, decimalDigits, Nat.toDigits_of_base_le (by decide) large,
        Nat.mul_div_cancel _ (by decide), Nat.mul_mod_left, ← decimalDigits, inductionHypothesis,
        List.append_assoc, List.replicate_succ']
      rfl

namespace Decimal

theorem units_of_nonneg {d : Decimal} (nonneg : 0 ≤ d.exponent) :
    d.units = (d.digits * 10 ^ d.exponent.toNat * unitsPerOne, 1) := by
  rw [units, if_pos nonneg]
  rfl

theorem units_of_neg {d : Decimal} (negative : d.exponent < 0) :
    d.units = (d.digits * unitsPerOne, 10 ^ (-d.exponent).toNat) := by
  rw [units, if_neg (not_le.mpr negative)]
  rfl

/-- Zeros before and after the point do not change what a decimal without places stands for. -/
theorem magnitude?_point {d : Decimal} (nonneg : 0 ≤ d.exponent) :
    (⟨d.digits * 10 ^ (d.exponent.toNat + 1), -1⟩ : Decimal).magnitude? = d.magnitude? := by
  by_cases zero : d.digits = 0
  · simp [magnitude?, zero]
  · have positive : 0 < d.digits := Nat.pos_of_ne_zero zero
    have scaled : d.digits * 10 ^ (d.exponent.toNat + 1) ≠ 0 :=
      (Nat.mul_pos positive (Nat.pow_pos (by decide))).ne'
    have places : (digitCount (d.digits * 10 ^ (d.exponent.toNat + 1)) : ℤ) + -1 =
        digitCount d.digits + d.exponent := by
      rw [digitCount, decimalDigits_mul_pow positive, List.length_append, List.length_replicate,
        ← digitCount]
      omega
    have units : d.digits * 10 ^ (d.exponent.toNat + 1) * unitsPerOne =
        10 * (d.digits * 10 ^ d.exponent.toNat * unitsPerOne) := by
      rw [Nat.pow_succ]
      ring
    rw [magnitude?, magnitude?, if_neg scaled, if_neg zero]
    simp only [places, units_of_nonneg nonneg]
    rw [units_of_neg (by simp)]
    simp only [units]
    rw [← Magnitude.ofUnits?_mul_left (show 0 < 10 by decide) _ 1]
    rfl

theorem digits_pos {d : Decimal} {magnitude : Magnitude} (reads : d.magnitude? = some magnitude)
    (nonzero : magnitude.units ≠ 0) : 0 < d.digits := by
  rw [Nat.pos_iff_ne_zero]
  intro zero
  rw [magnitude?, if_pos zero] at reads
  exact nonzero (by rw [← Option.some.inj reads]; rfl)

end Decimal

namespace Magnitude

theorem ext {first second : Magnitude} (same : first.units = second.units) : first = second := by
  rcases first with ⟨units, representable⟩
  rcases second with ⟨other, _⟩
  simp only at same
  subst same
  rfl

theorem exact_eq (magnitude : Magnitude) :
    magnitude.exact = ⟨magnitude.units * 5 ^ unitPlaces, -(unitPlaces : ℤ)⟩ := by
  have places : -(unitPlaces : ℤ) = -1074 := rfl
  rw [places]
  delta exact unitPlaces
  generalize 1074 = places
  rfl

theorem digitCount_le_of_lt {units places whole bound : Nat} (below : units < 2 ^ (whole + places))
    (enough : whole ≤ 3 * bound) (positive : 0 < bound + places) :
    digitCount (units * 5 ^ places) ≤ bound + places := by
  rw [digitCount_le_iff positive]
  have powers : 2 ^ whole ≤ 10 ^ bound :=
    calc 2 ^ whole ≤ 2 ^ (3 * bound) := Nat.pow_le_pow_right (by decide) enough
      _ = 8 ^ bound := Nat.pow_mul 2 3 bound
      _ ≤ 10 ^ bound := Nat.pow_le_pow_left (by decide) bound
  calc units * 5 ^ places < 2 ^ (whole + places) * 5 ^ places :=
        Nat.mul_lt_mul_of_pos_right below (Nat.pow_pos (by decide))
    _ = 2 ^ whole * 10 ^ places := by rw [Nat.pow_add, Nat.mul_assoc, ← Nat.mul_pow]
    _ ≤ 10 ^ bound * 10 ^ places := Nat.mul_le_mul_right _ powers
    _ = 10 ^ (bound + places) := (Nat.pow_add 10 bound places).symm

theorem lt_digitCount {units places bound : Nat} (nonzero : units ≠ 0) (positive : 0 < bound)
    (enough : 3 * bound ≤ 2 * places) : bound < digitCount (units * 5 ^ places) := by
  by_contra few
  have below := (digitCount_le_iff positive).mp (not_lt.mp few)
  have powers : 10 ^ bound ≤ 5 ^ places :=
    calc 10 ^ bound = 2 ^ bound * 5 ^ bound := Nat.mul_pow 2 5 bound
      _ ≤ 2 ^ (2 * (places - bound)) * 5 ^ bound :=
          Nat.mul_le_mul_right _ (Nat.pow_le_pow_right (by decide) (by omega))
      _ = 4 ^ (places - bound) * 5 ^ bound := by rw [Nat.pow_mul]
      _ ≤ 5 ^ (places - bound) * 5 ^ bound :=
          Nat.mul_le_mul_right _ (Nat.pow_le_pow_left (by decide) _)
      _ = 5 ^ places := by rw [← Nat.pow_add, Nat.sub_add_cancel (by omega)]
  have scaled : 5 ^ places ≤ units * 5 ^ places :=
    Nat.le_mul_of_pos_left _ (Nat.pos_of_ne_zero nonzero)
  omega

/-- The exact value of a magnitude reads back. -/
theorem magnitude?_exact {magnitude : Magnitude} (nonzero : magnitude.units ≠ 0) :
    magnitude.exact.magnitude? = some magnitude := by
  have many : 673 < digitCount (magnitude.units * 5 ^ unitPlaces) :=
    lt_digitCount nonzero (by decide) (by decide)
  have few : digitCount (magnitude.units * 5 ^ unitPlaces) ≤ 400 + unitPlaces :=
    digitCount_le_of_lt (representable_iff.mp magnitude.representable).1 (by decide) (by omega)
  have places : (unitPlaces : ℤ) = 1074 := rfl
  have digits : magnitude.units * 5 ^ unitPlaces ≠ 0 :=
    Nat.mul_ne_zero nonzero (Nat.pow_pos (by decide)).ne'
  rw [exact_eq, Decimal.magnitude?, if_neg digits]
  simp only
  rw [if_neg (by omega), if_neg (by omega), Decimal.units_of_neg (by simp [places])]
  have scale : magnitude.units * 5 ^ unitPlaces * unitsPerOne =
      magnitude.units * 10 ^ unitPlaces := by
    rw [unitsPerOne_eq, Nat.mul_assoc, ← Nat.mul_pow]
  simp only [neg_neg, Int.toNat_natCast, scale]
  exact ofUnits?_exact magnitude.representable (Nat.pow_pos (by decide))

/-- The shortest decimal of a magnitude reads back as that magnitude. -/
theorem magnitude?_shortest (magnitude : Magnitude) :
    magnitude.shortest.magnitude? = some magnitude := by
  rw [shortest]
  split
  next zero =>
      rw [Decimal.magnitude?, if_pos rfl]
      exact congrArg some (ext zero.symm)
  next nonzero =>
      simp only
      generalize List.flatMap _ _ = candidates
      cases found : candidates.find? fun d => d.magnitude? == some magnitude with
      | none => exact magnitude?_exact nonzero
      | some d => simpa using List.find?_some found

end Magnitude

end AnimationGrammar
