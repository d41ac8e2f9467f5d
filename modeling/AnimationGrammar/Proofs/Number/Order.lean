import AnimationGrammar.Proofs.Number.Rounding
import Mathlib.Algebra.Order.Ring.Int
import Mathlib.Data.Int.ConditionallyCompleteOrder
import Mathlib.Order.ConditionallyCompleteLattice.Basic

/-!
Numbers on a line.

`Numeral.place` is where a number stands among all others, the infinities at the ends.  Comparing
numbers is comparing places, and rounding keeps a number on its side of every small integer.
-/

namespace AnimationGrammar

/-- A number, whole or fractional or infinite. -/
def Numeral.IsOrdered (n : Numeral) : Prop := n ≠ .double .notANumber

theorem natCast_unitsPerOne_pos : (0 : ℤ) < unitsPerOne := by exact_mod_cast unitsPerOne_pos

/-- A number of units as a place between the infinities. -/
def finitePlace (units : ℤ) : WithBot (WithTop ℤ) := (units : WithTop ℤ)

@[simp] theorem finitePlace_lt {a b : ℤ} : finitePlace a < finitePlace b ↔ a < b := by
  simp [finitePlace]

@[simp] theorem finitePlace_inj {a b : ℤ} : finitePlace a = finitePlace b ↔ a = b := by
  simp [finitePlace]

@[simp] theorem finitePlace_lt_top (a : ℤ) : finitePlace a < ⊤ := by
  exact WithBot.coe_lt_coe.mpr (WithTop.coe_lt_top a)

@[simp] theorem bot_lt_finitePlace (a : ℤ) : ⊥ < finitePlace a := WithBot.bot_lt_coe _

namespace Numeral

/-- Where a number stands, in units. -/
def place : Numeral → WithBot (WithTop ℤ)
  | .integer value => finitePlace (value * unitsPerOne)
  | .double (.finite negative magnitude) => finitePlace (signed negative magnitude.units)
  | .double (.infinite negative) => if negative then ⊥ else ⊤
  | .double .notANumber => ⊥

theorem isLess_iff {a b : Numeral} (first : a.IsOrdered) (second : b.IsOrdered) :
    a.isLess b = true ↔ a.place < b.place := by
  rcases a with value | ⟨negative, magnitude⟩ | (_ | _) | _ <;>
    rcases b with other | ⟨sign, other⟩ | (_ | _) | _ <;>
    simp only [isLess, exactUnits?, place, Double.isLess, Double.zero] <;>
    generalize unitsPerOne = scale <;>
    simp_all [IsOrdered, (bot_lt_finitePlace _).not_gt, (finitePlace_lt_top _).not_gt]

theorem isEqual_iff {a b : Numeral} (first : a.IsOrdered) (second : b.IsOrdered) :
    a.isEqual b = true ↔ a.place = b.place := by
  rcases a with value | ⟨negative, magnitude⟩ | (_ | _) | _ <;>
    rcases b with other | ⟨sign, other⟩ | (_ | _) | _ <;>
    simp only [isEqual, exactUnits?, place, Double.isEqual] <;>
    generalize unitsPerOne = scale <;>
    simp_all [IsOrdered, (bot_lt_finitePlace _).ne, (bot_lt_finitePlace _).ne',
      (finitePlace_lt_top _).ne, (finitePlace_lt_top _).ne']

theorem isOrdered_of_isEqual {a b : Numeral} (equal : a.isEqual b = true) :
    a.IsOrdered ∧ b.IsOrdered := by
  constructor
  · rintro rfl
    rcases b with value | ⟨negative, magnitude⟩ | negative | _ <;> exact Bool.false_ne_true equal
  · rintro rfl
    rcases a with value | ⟨negative, magnitude⟩ | negative | _ <;> exact Bool.false_ne_true equal

theorem isOrdered_of_isLess {a b : Numeral} (less : a.isLess b = true) :
    a.IsOrdered ∧ b.IsOrdered := by
  constructor
  · rintro rfl
    rcases b with value | ⟨negative, magnitude⟩ | negative | _ <;> exact Bool.false_ne_true less
  · rintro rfl
    rcases a with value | ⟨negative, magnitude⟩ | negative | _ <;> exact Bool.false_ne_true less

theorem place_of_isEqual {a b : Numeral} (equal : a.isEqual b = true) : a.place = b.place := by
  obtain ⟨first, second⟩ := isOrdered_of_isEqual equal
  exact (isEqual_iff first second).mp equal

theorem isLess_congr {a b c d : Numeral} (first : a.isEqual c = true) (second : b.isEqual d = true) :
    a.isLess b = c.isLess d := by
  obtain ⟨orderedA, orderedC⟩ := isOrdered_of_isEqual first
  obtain ⟨orderedB, orderedD⟩ := isOrdered_of_isEqual second
  rw [Bool.eq_iff_iff, isLess_iff orderedA orderedB, isLess_iff orderedC orderedD,
    place_of_isEqual first, place_of_isEqual second]

theorem integer_place_inj {first second : ℤ} :
    (integer first).place = (integer second).place ↔ first = second := by
  rw [place, place, finitePlace_inj, mul_left_inj' natCast_unitsPerOne_pos.ne']

end Numeral

theorem Double.isLess_eq (x y : Double) : x.isLess y = (Numeral.double x).isLess (.double y) := by
  rcases x with ⟨negative, magnitude⟩ | (_ | _) | _ <;>
    rcases y with ⟨sign, other⟩ | (_ | _) | _ <;>
    simp [Double.isLess, Numeral.isLess, Numeral.exactUnits?, Double.zero]

theorem Double.isEqual_eq (x y : Double) : x.isEqual y = (Numeral.double x).isEqual (.double y) := by
  rcases x with ⟨negative, magnitude⟩ | (_ | _) | _ <;>
    rcases y with ⟨sign, other⟩ | (_ | _) | _ <;>
    simp [Double.isEqual, Numeral.isEqual, Numeral.exactUnits?]

/-! ### Rounding to a double -/

theorem signed_natAbs (value : ℤ) (scale : Nat) :
    signed (value < 0) (value.natAbs * scale) = value * scale := by
  rw [signed]
  by_cases negative : value < 0
  · have magnitude : (value.natAbs : ℤ) = -value := Int.ofNat_natAbs_of_nonpos negative.le
    simp only [negative, decide_true, if_true, Int.natCast_mul, magnitude]
    ring
  · have magnitude : (value.natAbs : ℤ) = value := Int.natAbs_of_nonneg (not_lt.mp negative)
    simp only [negative, decide_false, Bool.false_eq_true, if_false, Int.natCast_mul, magnitude]

namespace Numeral

/-- An integer that a double can hold is its own rounding. -/
theorem toDouble?_exact {value : ℤ} (representable : Representable (value.natAbs * unitsPerOne)) :
    ∃ x, (integer value).toDouble? = some x ∧ (double x).place = (integer value).place := by
  refine ⟨.finite (value < 0) ⟨_, representable⟩, ?_, ?_⟩
  · have exact := Magnitude.ofUnits?_exact representable Nat.one_pos
    rw [Nat.mul_one] at exact
    rw [toDouble?, Double.ofInt?, exact, Option.map_some]
  · rw [place, place, signed_natAbs]

theorem toDouble?_small {value : ℤ} (small : value.natAbs ≤ exactIntegers) :
    ∃ x, (integer value).toDouble? = some x ∧ (double x).place = (integer value).place :=
  toDouble?_exact (.of_le small)

theorem toDouble?_isOrdered {n : Numeral} {x : Double} (ordered : n.IsOrdered)
    (rounded : n.toDouble? = some x) : (double x).IsOrdered := by
  cases n with
  | integer value =>
      rw [toDouble?, Double.ofInt?, Option.map_eq_some_iff] at rounded
      obtain ⟨magnitude, _, rfl⟩ := rounded
      simp [IsOrdered]
  | double value => rwa [← Option.some.inj rounded]

/-- A number and its rounding are equal, or lie both beyond all small integers. -/
theorem rounded_place {n : Numeral} {x : Double} (rounded : n.toDouble? = some x) :
    (double x).place = n.place ∨
      (∀ limit : ℤ, limit.natAbs < exactIntegers →
        (integer limit).place < n.place ∧ (integer limit).place < (double x).place) ∨
      ∀ limit : ℤ, limit.natAbs < exactIntegers →
        n.place < (integer limit).place ∧ (double x).place < (integer limit).place := by
  cases n with
  | double value => exact .inl (by rw [← Option.some.inj rounded])
  | integer value =>
      rcases Nat.le_total value.natAbs exactIntegers with small | large
      · obtain ⟨y, exact, place⟩ := toDouble?_small small
        rw [rounded, Option.some.injEq] at exact
        exact .inl (exact ▸ place)
      · rw [toDouble?, Double.ofInt?, Option.map_eq_some_iff] at rounded
        obtain ⟨magnitude, rounded, rfl⟩ := rounded
        have far : exactIntegers * unitsPerOne ≤ magnitude.units := by
          have limit : exactIntegers * unitsPerOne = 2 ^ (53 + unitPlaces) := by
            rw [exactIntegers, unitsPerOne_eq, ← Nat.pow_add]
          rw [limit]
          exact Magnitude.pow_le_ofUnits? rounded (limit ▸ Nat.mul_le_mul_right _ large)
        have farInt : (exactIntegers : ℤ) * unitsPerOne ≤ magnitude.units := by exact_mod_cast far
        by_cases negative : value < 0
        · refine .inr (.inr fun limit small => ?_)
          have between : -(exactIntegers : ℤ) < limit := by omega
          simp only [place, finitePlace_lt, signed, negative, decide_true, if_true]
          constructor
          · exact mul_lt_mul_of_pos_right (by omega) natCast_unitsPerOne_pos
          · have scaled := mul_lt_mul_of_pos_right between natCast_unitsPerOne_pos
            rw [neg_mul] at scaled
            omega
        · refine .inr (.inl fun limit small => ?_)
          have between : limit < exactIntegers := by omega
          simp only [place, finitePlace_lt, signed, negative, decide_false, Bool.false_eq_true,
            if_false]
          constructor
          · exact mul_lt_mul_of_pos_right (by omega) natCast_unitsPerOne_pos
          · exact (mul_lt_mul_of_pos_right between natCast_unitsPerOne_pos).trans_le farInt

theorem rounded_lt_iff {n : Numeral} {x : Double} (rounded : n.toDouble? = some x) {limit : ℤ}
    (small : limit.natAbs < exactIntegers) :
    (double x).place < (integer limit).place ↔ n.place < (integer limit).place := by
  rcases rounded_place rounded with same | above | below
  · rw [same]
  · exact ⟨fun less => absurd less (above limit small).2.not_gt,
      fun less => absurd less (above limit small).1.not_gt⟩
  · exact ⟨fun _ => (below limit small).1, fun _ => (below limit small).2⟩

theorem lt_rounded_iff {n : Numeral} {x : Double} (rounded : n.toDouble? = some x) {limit : ℤ}
    (small : limit.natAbs < exactIntegers) :
    (integer limit).place < (double x).place ↔ (integer limit).place < n.place := by
  rcases rounded_place rounded with same | above | below
  · rw [same]
  · exact ⟨fun _ => (above limit small).1, fun _ => (above limit small).2⟩
  · exact ⟨fun less => absurd less (below limit small).2.not_gt,
      fun less => absurd less (below limit small).1.not_gt⟩

theorem rounded_eq_iff {n : Numeral} {x : Double} (rounded : n.toDouble? = some x) {limit : ℤ}
    (small : limit.natAbs < exactIntegers) :
    (double x).place = (integer limit).place ↔ n.place = (integer limit).place := by
  rw [le_antisymm_iff, le_antisymm_iff, ← not_lt, ← not_lt, ← not_lt, ← not_lt,
    rounded_lt_iff rounded small, lt_rounded_iff rounded small]

theorem natAbs_signed (negative : Bool) (magnitude : Nat) :
    (signed negative magnitude).natAbs = magnitude := by
  cases negative <;> simp [signed]

theorem representable_of_double {value : ℤ} {d : Double}
    (same : (integer value).place = (double d).place) :
    Representable (value.natAbs * unitsPerOne) := by
  rcases d with ⟨negative, magnitude⟩ | (_ | _) | _
  · rw [place, place, finitePlace_inj] at same
    have units : value.natAbs * unitsPerOne = magnitude.units := by
      rw [← natAbs_signed negative magnitude.units, ← same, Int.natAbs_mul, Int.natAbs_natCast]
    exact units ▸ magnitude.representable
  · exact absurd same (finitePlace_lt_top _).ne
  · exact absurd same (bot_lt_finitePlace _).ne'
  · exact absurd same (bot_lt_finitePlace _).ne'

theorem toDouble?_of_double {value : ℤ} {d : Double}
    (same : (integer value).place = (double d).place) :
    ∃ x, (integer value).toDouble? = some x ∧ (double x).place = (integer value).place :=
  toDouble?_exact (representable_of_double same)

theorem toDouble?_congr {a b : Numeral} {x : Double} (same : a.place = b.place)
    (rounded : a.toDouble? = some x) :
    ∃ y, b.toDouble? = some y ∧ (double y).place = (double x).place := by
  cases a with
  | integer value =>
      cases b with
      | integer other =>
          rw [integer_place_inj.mp same] at rounded
          exact ⟨x, rounded, rfl⟩
      | double e =>
          obtain ⟨y, exact, equality⟩ := toDouble?_of_double same
          rw [rounded, Option.some.injEq] at exact
          exact ⟨e, rfl, by rw [exact, equality, same]⟩
  | double d =>
      rw [← Option.some.inj rounded, same]
      cases b with
      | integer other => exact toDouble?_of_double same.symm
      | double e => exact ⟨e, rfl, rfl⟩

/-- Numbers that are equal round alike. -/
theorem rounded_congr {a b : Numeral} {x y : Double} (same : a.place = b.place)
    (first : a.toDouble? = some x) (second : b.toDouble? = some y) :
    (double x).place = (double y).place := by
  obtain ⟨z, rounded, equality⟩ := toDouble?_congr same first
  rw [second, Option.some.injEq] at rounded
  rw [rounded, equality]

theorem rounded_toInt? {n : Numeral} {x : Double} (rounded : n.toDouble? = some x) :
    x.toInt?.isSome = n.toInt?.isSome := by
  cases n with
  | double value => rw [← Option.some.inj rounded, toInt?]
  | integer value =>
      rw [toDouble?, Double.ofInt?, Option.map_eq_some_iff] at rounded
      obtain ⟨magnitude, rounded, rfl⟩ := rounded
      have whole := Magnitude.whole?_isSome_iff.mpr (Magnitude.dvd_ofUnits? rounded)
      simp [Double.toInt?, toInt?, whole]

end Numeral

end AnimationGrammar
