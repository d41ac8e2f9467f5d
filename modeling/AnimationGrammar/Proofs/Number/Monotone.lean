import AnimationGrammar.Proofs.Number.Order

/-!
Rounding keeps the order.

Magnitudes between two powers of two share one spacing, and there rounding a quotient keeps the order.
Between such ranges nothing has to be compared: rounding does not cross a power of two, from above or
from below.  With the signs put back, a number that is at most another still is when both have been
rounded, so numbers that are in strict order as doubles were in that order before.
-/

namespace AnimationGrammar

theorem divideToNearest_le_succ (dividend divisor : Nat) :
    divideToNearest dividend divisor ≤ dividend / divisor + 1 := by
  simp only [divideToNearest]
  split
  · exact Nat.le_succ _
  · split
    · exact le_refl _
    · split
      · exact Nat.le_succ _
      · exact le_refl _

theorem divideToNearest_mono {dividend other : Nat} (divisor : Nat) (le : dividend ≤ other) :
    divideToNearest dividend divisor ≤ divideToNearest other divisor := by
  rcases Nat.lt_or_eq_of_le (Nat.div_le_div_right (c := divisor) le) with less | same
  · calc divideToNearest dividend divisor ≤ dividend / divisor + 1 := divideToNearest_le_succ _ _
      _ ≤ other / divisor := less
      _ ≤ divideToNearest other divisor := le_divideToNearest _ _
  · have rest : dividend % divisor ≤ other % divisor := by
      have first := Nat.div_add_mod dividend divisor
      have second := Nat.div_add_mod other divisor
      rw [same] at first
      omega
    simp only [divideToNearest, same]
    generalize dividend % divisor = lower at rest
    generalize other % divisor = upper at rest
    generalize other / divisor = quotient
    split_ifs <;> omega

namespace Magnitude

/-- Rounding does not cross a power of two from below. -/
theorem nearestUnits_le_pow {units exponent : Nat} (below : units < 2 ^ exponent) :
    nearestUnits units ≤ 2 ^ exponent := by
  have logBound : units.log2 - 52 ≤ exponent := by
    by_cases zero : units = 0
    · simp [zero]
    · have := (Nat.log2_lt zero).mpr below
      omega
  have divides : spacing units ∣ 2 ^ exponent := Nat.pow_dvd_pow 2 logBound
  calc nearestUnits units
      ≤ divideToNearest (2 ^ exponent) (spacing units) * spacing units :=
        Nat.mul_le_mul_right _ (divideToNearest_mono _ below.le)
    _ = 2 ^ exponent := by
        rw [divideToNearest_of_dvd (spacing_pos units) divides, Nat.div_mul_cancel divides]

theorem nearestUnits_mono {lower upper : Nat} (le : lower ≤ upper) :
    nearestUnits lower ≤ nearestUnits upper := by
  by_cases zero : lower = 0
  · have nothing : nearestUnits lower = 0 := by
      rw [zero]
      rfl
    rw [nothing]
    exact Nat.zero_le _
  · have nonzero : upper ≠ 0 := by omega
    have logLe : lower.log2 ≤ upper.log2 :=
      (Nat.le_log2 nonzero).mpr ((Nat.log2_self_le zero).trans le)
    rcases Nat.lt_or_eq_of_le logLe with apart | same
    · calc nearestUnits lower ≤ 2 ^ (lower.log2 + 1) := nearestUnits_le_pow Nat.lt_log2_self
        _ ≤ 2 ^ upper.log2 := Nat.pow_le_pow_right (by decide) apart
        _ ≤ nearestUnits upper := pow_le_nearestUnits (Nat.log2_self_le nonzero)
    · have spacings : spacing lower = spacing upper := by rw [spacing, spacing, same]
      rw [nearestUnits, nearestUnits, spacings]
      exact Nat.mul_le_mul_right _ (divideToNearest_mono _ le)

theorem ofUnits?_mono {lower upper : Nat} {first second : Magnitude} (le : lower ≤ upper)
    (roundedLower : ofUnits? lower 1 = some first) (roundedUpper : ofUnits? upper 1 = some second) :
    first.units ≤ second.units := by
  rw [units_of_rounded roundedLower, units_of_rounded roundedUpper]
  exact nearestUnits_mono le

end Magnitude

/-- Rounding whole numbers of units keeps their order when the signs are put back. -/
theorem signed_mono {lower upper : ℤ} {first second : Magnitude} (le : lower ≤ upper)
    (roundedLower : Magnitude.ofUnits? lower.natAbs 1 = some first)
    (roundedUpper : Magnitude.ofUnits? upper.natAbs 1 = some second) :
    signed (lower < 0) first.units ≤ signed (upper < 0) second.units := by
  by_cases lowerSign : lower < 0
  · by_cases upperSign : upper < 0
    · have magnitudes := Magnitude.ofUnits?_mono (by omega) roundedUpper roundedLower
      simp only [signed, lowerSign, upperSign, decide_true, if_true]
      omega
    · simp only [signed, lowerSign, upperSign, decide_true, decide_false, Bool.false_eq_true,
        if_true, if_false]
      omega
  · have upperSign : ¬ upper < 0 := by omega
    have magnitudes := Magnitude.ofUnits?_mono (by omega) roundedLower roundedUpper
    simp only [signed, lowerSign, upperSign, decide_false, Bool.false_eq_true, if_false]
    omega

namespace Numeral

/-- How a number relates to its rounding: the infinities stay, and a whole number of units is rounded as a
magnitude with its sign. -/
inductive RoundsTo : WithBot (WithTop ℤ) → WithBot (WithTop ℤ) → Prop
  | bot : RoundsTo ⊥ ⊥
  | top : RoundsTo ⊤ ⊤
  | finite {units magnitude} : Magnitude.ofUnits? (Int.natAbs units) 1 = some magnitude →
      RoundsTo (finitePlace units) (finitePlace (signed (units < 0) magnitude.units))

theorem roundsTo {n : Numeral} {x : Double} (rounded : n.toDouble? = some x) :
    RoundsTo n.place (double x).place := by
  cases n with
  | integer value =>
      have sign : value * unitsPerOne < 0 ↔ value < 0 := by
        constructor
        · intro negative
          exact neg_of_mul_neg_left negative natCast_unitsPerOne_pos.le
        · intro negative
          exact mul_neg_of_neg_of_pos negative natCast_unitsPerOne_pos
      rw [toDouble?, Double.ofInt?, Option.map_eq_some_iff] at rounded
      obtain ⟨magnitude, rounded, rfl⟩ := rounded
      simp only [place, ← sign]
      apply RoundsTo.finite
      rwa [Int.natAbs_mul, Int.natAbs_natCast]
  | double value =>
      obtain rfl := Option.some.inj rounded
      rcases value with ⟨negative, magnitude⟩ | (_ | _) | _
      · have exact : Magnitude.ofUnits? (signed negative magnitude.units).natAbs 1 =
            some magnitude := by
          have held := Magnitude.ofUnits?_exact magnitude.representable Nat.one_pos
          rw [natAbs_signed]
          rwa [Nat.mul_one] at held
        have same : signed (signed negative magnitude.units < 0) magnitude.units =
            signed negative magnitude.units := by
          cases negative with
          | false => simp [signed]
          | true =>
              simp only [signed, if_true]
              split <;> simp_all
        have finite := RoundsTo.finite exact
        rwa [same] at finite
      · exact .top
      · exact .bot
      · exact .bot

theorem RoundsTo.mono {first second lower upper : WithBot (WithTop ℤ)}
    (roundsLower : RoundsTo first lower) (roundsUpper : RoundsTo second upper)
    (le : first ≤ second) : lower ≤ upper := by
  cases roundsLower with
  | bot => exact bot_le
  | top =>
      cases roundsUpper with
      | bot => exact absurd le (by decide)
      | top => exact le_refl _
      | finite _ => exact absurd le (finitePlace_lt_top _).not_ge
  | finite roundedLower =>
      cases roundsUpper with
      | bot => exact absurd le (bot_lt_finitePlace _).not_ge
      | top => exact (finitePlace_lt_top _).le
      | finite roundedUpper =>
          rw [← not_lt, finitePlace_lt, not_lt] at le ⊢
          exact signed_mono le roundedLower roundedUpper

/-- Numbers that are in strict order when rounded are in strict order. -/
theorem isLess_of_rounded {a b : Numeral} {x y : Double} (first : a.IsOrdered)
    (second : b.IsOrdered) (roundedA : a.toDouble? = some x) (roundedB : b.toDouble? = some y)
    (less : x.isLess y = true) : a.isLess b = true := by
  rw [Double.isLess_eq, isLess_iff (toDouble?_isOrdered first roundedA)
    (toDouble?_isOrdered second roundedB)] at less
  rw [isLess_iff first second]
  by_contra notLess
  exact less.not_ge ((roundsTo roundedB).mono (roundsTo roundedA) (not_lt.mp notLess))

end Numeral

end AnimationGrammar
