import AnimationGrammar.Number.Numeral
import Mathlib.Data.Nat.Log
import Mathlib.Tactic.Common
import Mathlib.Tactic.Ring

/-!
Rounding to doubles.

What a double can hold is its own rounding.  An integer up to `exactIntegers` is held exactly, and a
larger one rounds to a double that is no smaller than that, so comparing with a small limit gives the
same answer before and after rounding.
-/

namespace AnimationGrammar

/-- The largest integer up to which doubles hold every integer. -/
def exactIntegers : Nat := 2 ^ 53

def unitPlaces : Nat := 1074

theorem unitsPerOne_eq : unitsPerOne = 2 ^ unitPlaces := by
  delta unitsPerOne unitPlaces
  generalize 1074 = places
  rfl

theorem representable_iff {units : Nat} :
    Representable units ↔ units < 2 ^ (1024 + unitPlaces) ∧ units % 2 ^ (units.log2 - 52) = 0 := by
  have limit : 1024 + unitPlaces = 2098 := rfl
  rw [limit]
  delta Representable
  generalize 2098 = places
  rfl

theorem unitsPerOne_pos : 0 < unitsPerOne := by
  rw [unitsPerOne_eq]
  exact Nat.two_pow_pos unitPlaces

theorem divideToNearest_of_dvd {dividend divisor : Nat} (positive : 0 < divisor)
    (divides : divisor ∣ dividend) : divideToNearest dividend divisor = dividend / divisor := by
  simp [divideToNearest, Nat.mod_eq_zero_of_dvd divides, positive]

theorem le_divideToNearest (dividend divisor : Nat) :
    dividend / divisor ≤ divideToNearest dividend divisor := by
  simp only [divideToNearest]
  split
  · exact le_refl _
  · split
    · exact Nat.le_succ _
    · split
      · exact le_refl _
      · exact Nat.le_succ _

/-- Rounding a quotient does not depend on how the quotient is written. -/
theorem divideToNearest_mul_left {scale : Nat} (positive : 0 < scale) (dividend divisor : Nat) :
    divideToNearest (scale * dividend) (scale * divisor) = divideToNearest dividend divisor := by
  have twice : 2 * (scale * (dividend % divisor)) = scale * (2 * (dividend % divisor)) := by ring
  simp only [divideToNearest, Nat.mul_div_mul_left _ _ positive, Nat.mul_mod_mul_left, twice,
    Nat.mul_lt_mul_left positive]

namespace Magnitude

/-- The distance between magnitudes near a number of units. -/
def spacing (units : Nat) : Nat := 2 ^ (units.log2 - 52)

theorem spacing_pos (units : Nat) : 0 < spacing units := Nat.two_pow_pos _

theorem spacing_dvd {units : Nat} (representable : Representable units) : spacing units ∣ units :=
  Nat.dvd_of_mod_eq_zero representable.2

theorem ofUnits?_eq (numerator denominator : Nat) :
    ofUnits? numerator denominator =
      let units := divideToNearest numerator (denominator * spacing (numerator / denominator)) *
        spacing (numerator / denominator)
      if representable : Representable units then some ⟨units, representable⟩ else none := rfl

theorem ofUnits?_mul_left {scale : Nat} (positive : 0 < scale) (numerator denominator : Nat) :
    ofUnits? (scale * numerator) (scale * denominator) = ofUnits? numerator denominator := by
  simp only [ofUnits?_eq, Nat.mul_div_mul_left _ _ positive, Nat.mul_assoc,
    divideToNearest_mul_left positive]

/-- Rounding leaves alone what a double can hold. -/
theorem ofUnits?_exact {units scale : Nat} (representable : Representable units)
    (positive : 0 < scale) : ofUnits? (units * scale) scale = some ⟨units, representable⟩ := by
  have quotient : units * scale / scale = units := Nat.mul_div_cancel _ positive
  have divides : scale * spacing units ∣ units * scale := by
    rw [Nat.mul_comm units]
    exact Nat.mul_dvd_mul_left _ (spacing_dvd representable)
  have rounded : divideToNearest (units * scale) (scale * spacing units) * spacing units = units := by
    rw [divideToNearest_of_dvd (Nat.mul_pos positive (spacing_pos units)) divides,
      Nat.mul_comm units, Nat.mul_div_mul_left _ _ positive,
      Nat.div_mul_cancel (spacing_dvd representable)]
  rw [ofUnits?_eq, quotient]
  simp only [rounded, representable, dif_pos]

theorem ofUnits?_units {numerator denominator : Nat} {magnitude : Magnitude}
    (rounded : ofUnits? numerator denominator = some magnitude) :
    magnitude.units = divideToNearest numerator
      (denominator * spacing (numerator / denominator)) * spacing (numerator / denominator) := by
  rw [ofUnits?_eq] at rounded
  simp only at rounded
  split at rounded
  · rw [← Option.some.inj rounded]
  · simp at rounded

/-- A number of units rounded to a multiple of the spacing near it, however large that is. -/
def nearestUnits (units : Nat) : Nat := divideToNearest units (spacing units) * spacing units

theorem units_of_rounded {units : Nat} {magnitude : Magnitude}
    (rounded : ofUnits? units 1 = some magnitude) : magnitude.units = nearestUnits units := by
  rw [ofUnits?_units rounded, Nat.div_one, Nat.one_mul, nearestUnits]

theorem pow_le_nearestUnits {units exponent : Nat} (below : 2 ^ exponent ≤ units) :
    2 ^ exponent ≤ nearestUnits units := by
  have nonzero : units ≠ 0 := by
    have := Nat.two_pow_pos exponent
    omega
  have logBound : exponent ≤ units.log2 := (Nat.le_log2 nonzero).mpr below
  have divides : spacing units ∣ 2 ^ units.log2 := Nat.pow_dvd_pow 2 (Nat.sub_le _ _)
  calc 2 ^ exponent ≤ 2 ^ units.log2 := Nat.pow_le_pow_right (by decide) logBound
    _ = 2 ^ units.log2 / spacing units * spacing units := (Nat.div_mul_cancel divides).symm
    _ ≤ units / spacing units * spacing units :=
        Nat.mul_le_mul_right _ (Nat.div_le_div_right (Nat.log2_self_le nonzero))
    _ ≤ nearestUnits units := Nat.mul_le_mul_right _ (le_divideToNearest _ _)

theorem pow_le_ofUnits? {units exponent : Nat} {magnitude : Magnitude}
    (rounded : ofUnits? units 1 = some magnitude) (below : 2 ^ exponent ≤ units) :
    2 ^ exponent ≤ magnitude.units :=
  units_of_rounded rounded ▸ pow_le_nearestUnits below

theorem dvd_ofUnits? {count : Nat} {magnitude : Magnitude}
    (rounded : ofUnits? (count * unitsPerOne) 1 = some magnitude) :
    unitsPerOne ∣ magnitude.units := by
  rw [ofUnits?_units rounded, Nat.div_one, Nat.one_mul]
  rcases Nat.le_total ((count * unitsPerOne).log2 - 52) unitPlaces with fine | coarse
  · have divides : spacing (count * unitsPerOne) ∣ unitsPerOne := by
      have powers := Nat.pow_dvd_pow 2 fine
      rwa [← unitsPerOne_eq] at powers
    have whole : spacing (count * unitsPerOne) ∣ count * unitsPerOne :=
      divides.trans (Nat.dvd_mul_left _ _)
    rw [divideToNearest_of_dvd (spacing_pos _) whole, Nat.div_mul_cancel whole]
    exact Nat.dvd_mul_left _ _
  · have divides : unitsPerOne ∣ spacing (count * unitsPerOne) := by
      have powers := Nat.pow_dvd_pow 2 coarse
      rwa [← unitsPerOne_eq] at powers
    exact divides.trans (Nat.dvd_mul_left _ _)

theorem whole?_isSome_iff {magnitude : Magnitude} :
    magnitude.whole?.isSome = true ↔ unitsPerOne ∣ magnitude.units := by
  rw [whole?, Nat.dvd_iff_mod_eq_zero]
  split <;> simp_all

end Magnitude

theorem Representable.of_le {count : Nat} (small : count ≤ exactIntegers) :
    Representable (count * unitsPerOne) := by
  have limit : exactIntegers * unitsPerOne = 2 ^ (53 + unitPlaces) := by
    rw [exactIntegers, unitsPerOne_eq, ← Nat.pow_add]
  have bound : count * unitsPerOne ≤ 2 ^ (53 + unitPlaces) :=
    limit ▸ Nat.mul_le_mul_right _ small
  rw [representable_iff]
  constructor
  · exact bound.trans_lt (Nat.pow_lt_pow_right (by decide) (by omega))
  · apply Nat.mod_eq_zero_of_dvd
    rcases Nat.lt_or_eq_of_le bound with below | equal
    · have logBound : (count * unitsPerOne).log2 - 52 ≤ unitPlaces := by
        by_cases zero : count * unitsPerOne = 0
        · rw [zero]
          decide
        · have := (Nat.log2_lt zero).mpr below
          omega
      have divides := Nat.pow_dvd_pow 2 logBound
      rw [← unitsPerOne_eq] at divides
      exact divides.trans (Nat.dvd_mul_left _ _)
    · rw [equal, Nat.log2_two_pow]
      exact Nat.pow_dvd_pow 2 (Nat.sub_le _ _)

end AnimationGrammar
