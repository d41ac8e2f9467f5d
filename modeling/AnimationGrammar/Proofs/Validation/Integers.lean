import AnimationGrammar.Proofs.Number.Monotone
import AnimationGrammar.Proofs.Validation.Numbers
import AnimationGrammar.Proofs.Validation.Results

/-!
Integers through validation.

A number that has to be whole is rounded to a double; the double is compared with limits that have become
doubles as well, and the integer equal to it is the result.  So an integer comes back unchanged exactly
when doubles can hold it and it lies within the rounded limits.  A double is never changed, but where a
limit other than itself is rounded to it, the double may end up on the wrong side of that limit.
-/

namespace AnimationGrammar

open Numeral

/-- Whether a number is at most another by exact value. -/
def Numeral.isAtMost (a b : Numeral) : Bool := a.isLess b || a.isEqual b

/-- Whether a number satisfies bounds by exact value.  Unlike with `Bounds.Admit`, nothing satisfies a
limit that is not a number. -/
@[mk_iff] structure Bounds.Contains (bounds : Bounds) (n : Numeral) : Prop where
  atMost : ∀ limit ∈ bounds.atMost, n.isAtMost limit = true
  below : ∀ limit ∈ bounds.below, n.isLess limit = true
  atLeast : ∀ limit ∈ bounds.atLeast, limit.isAtMost n = true
  above : ∀ limit ∈ bounds.above, limit.isLess n = true

instance (bounds : Bounds) (n : Numeral) : Decidable (bounds.Contains n) :=
  decidable_of_iff _ (bounds.contains_iff n).symm

def Bounds.map (f : Numeral → Numeral) (bounds : Bounds) : Bounds where
  atMost := bounds.atMost.map f
  below := bounds.below.map f
  atLeast := bounds.atLeast.map f
  above := bounds.above.map f

def Bounds.rounded (bounds : Bounds) : Bounds := bounds.map fun limit => .double limit.limit

/-- All limits of the bounds have doubles near them: there is no type with other ones. -/
def Bounds.Converts (bounds : Bounds) : Prop :=
  ∀ limit ∈ bounds.limits, limit.toDouble?.isSome = true

instance (bounds : Bounds) : Decidable bounds.Converts :=
  inferInstanceAs (Decidable (∀ limit ∈ bounds.limits, _))

/-- No limit of the bounds is rounded to a double unless it is equal to it. -/
def Bounds.IsSharpAt (bounds : Bounds) (x : Double) : Prop :=
  ∀ limit ∈ bounds.limits,
    (Numeral.double limit.limit).isEqual (.double x) = true → limit.isEqual (.double x) = true

instance (bounds : Bounds) (x : Double) : Decidable (bounds.IsSharpAt x) :=
  inferInstanceAs (Decidable (∀ limit ∈ bounds.limits, _ → _))

/-- An integer that has a double near it and satisfies the bounds is taken as it is. -/
def Bounds.KeepsInteger (bounds : Bounds) (n : ℤ) : Prop :=
  (Double.ofInt? n).isSome = true → bounds.Contains (.integer n) →
    (Value.integer n).check (.integer bounds) = .ok (.integer n)

/-- A double is taken exactly when it is whole and satisfies the bounds, as the integer equal to it. -/
def Bounds.KeepsDouble (bounds : Bounds) (x : Double) : Prop :=
  ∀ value, (Value.double x).check (.integer bounds) = .ok value ↔
    ∃ n : ℤ, (Numeral.double x).isEqual (.integer n) = true ∧ bounds.Contains (.double x) ∧
      value = .integer n

/-! ### Comparing by exact value -/

namespace Numeral

theorem isLess_iff_place {a b : Numeral} :
    a.isLess b = true ↔ a.IsOrdered ∧ b.IsOrdered ∧ a.place < b.place := by
  constructor
  · intro less
    obtain ⟨first, second⟩ := isOrdered_of_isLess less
    exact ⟨first, second, (isLess_iff first second).mp less⟩
  · rintro ⟨first, second, below⟩
    exact (isLess_iff first second).mpr below

theorem isAtMost_iff_place {a b : Numeral} :
    a.isAtMost b = true ↔ a.IsOrdered ∧ b.IsOrdered ∧ a.place ≤ b.place := by
  rw [isAtMost, Bool.or_eq_true]
  constructor
  · rintro (less | equal)
    · obtain ⟨first, second, below⟩ := isLess_iff_place.mp less
      exact ⟨first, second, below.le⟩
    · obtain ⟨first, second⟩ := isOrdered_of_isEqual equal
      exact ⟨first, second, (place_of_isEqual equal).le⟩
  · rintro ⟨first, second, atMost⟩
    rw [isLess_iff first second, isEqual_iff first second]
    exact atMost.lt_or_eq

/-- Whether a number compares with a limit as another number does with another limit. -/
structure ComparesAlike (n limit m other : Numeral) : Prop where
  atMost : n.isAtMost limit = true ↔ m.isAtMost other = true
  below : n.isLess limit = true ↔ m.isLess other = true
  atLeast : limit.isAtMost n = true ↔ other.isAtMost m = true
  above : limit.isLess n = true ↔ other.isLess m = true

theorem comparesAlike {n limit m other : Numeral} (number : n.IsOrdered ↔ m.IsOrdered)
    (limits : limit.IsOrdered ↔ other.IsOrdered)
    (sides : m.IsOrdered → other.IsOrdered → (n.place < limit.place ↔ m.place < other.place) ∧
      (limit.place < n.place ↔ other.place < m.place)) : ComparesAlike n limit m other := by
  constructor
  · rw [isAtMost_iff_place, isAtMost_iff_place, number, limits]
    refine and_congr_right fun first => and_congr_right fun second => ?_
    rw [← not_lt, ← not_lt, (sides first second).2]
  · rw [isLess_iff_place, isLess_iff_place, number, limits]
    exact and_congr_right fun first => and_congr_right fun second => (sides first second).1
  · rw [isAtMost_iff_place, isAtMost_iff_place, number, limits]
    refine and_congr_right fun second => and_congr_right fun first => ?_
    rw [← not_lt, ← not_lt, (sides first second).1]
  · rw [isLess_iff_place, isLess_iff_place, number, limits]
    exact and_congr_right fun second => and_congr_right fun first => (sides first second).2

end Numeral

theorem Double.isAtMost_eq (x y : Double) :
    x.isAtMost y = (Numeral.double x).isAtMost (.double y) := by
  rw [isAtMost, Numeral.isAtMost, isLess_eq, isEqual_eq]

namespace Bounds

variable {bounds : Bounds}

theorem mem_limits {limit : Numeral} :
    limit ∈ bounds.limits ↔ limit ∈ bounds.atMost ∨ limit ∈ bounds.below ∨
      limit ∈ bounds.atLeast ∨ limit ∈ bounds.above := by
  simp [limits]

/-- Validation compares a double with the limits as doubles. -/
theorem failure?_eq_none_iff_contains {x : Double} :
    bounds.failure? x = none ↔ bounds.rounded.Contains (.double x) := by
  rw [contains_iff]
  simp only [failure?_eq_none_iff, rounded, map, Option.forall_mem_map, Double.isAtMost_eq,
    Double.isLess_eq]

theorem contains_map_iff {f : Numeral → Numeral} {n m : Numeral}
    (alike : ∀ limit ∈ bounds.limits, ComparesAlike n (f limit) m limit) :
    (bounds.map f).Contains n ↔ bounds.Contains m := by
  rw [contains_iff, contains_iff]
  simp only [map, Option.forall_mem_map]
  refine and_congr ?_ (and_congr ?_ (and_congr ?_ ?_))
  · exact forall₂_congr fun limit given => (alike limit (mem_limits.mpr (.inl given))).atMost
  · exact forall₂_congr fun limit given => (alike limit (mem_limits.mpr (.inr (.inl given)))).below
  · exact forall₂_congr fun limit given =>
      (alike limit (mem_limits.mpr (.inr (.inr (.inl given))))).atLeast
  · exact forall₂_congr fun limit given =>
      (alike limit (mem_limits.mpr (.inr (.inr (.inr given))))).above

theorem contains_congr {n m : Numeral} (equal : n.isEqual m = true) :
    bounds.Contains n ↔ bounds.Contains m := by
  obtain ⟨first, second⟩ := isOrdered_of_isEqual equal
  have unchanged : bounds.map id = bounds := by simp [map]
  have alike : (bounds.map id).Contains n ↔ bounds.Contains m :=
    contains_map_iff fun limit _ => comparesAlike (iff_of_true first second) .rfl fun _ _ => by
      rw [place_of_isEqual equal]
      exact ⟨.rfl, .rfl⟩
  rwa [unchanged] at alike

end Bounds

/-! ### Limits as doubles -/

namespace Numeral

theorem limit_isOrdered_iff {limit : Numeral} :
    (double limit.limit).IsOrdered ↔ limit.IsOrdered := by
  cases limit with
  | double value => rfl
  | integer value =>
      rw [Numeral.limit, Double.ofInt?]
      cases Magnitude.ofUnits? (value.natAbs * unitsPerOne) 1 <;> simp [IsOrdered]

theorem limit_mono {limit : Numeral} (converts : limit.toDouble?.isSome = true) (x : Double) :
    (limit.place ≤ (double x).place → (double limit.limit).place ≤ (double x).place) ∧
      ((double x).place ≤ limit.place → (double x).place ≤ (double limit.limit).place) := by
  cases limit with
  | double value => exact ⟨id, id⟩
  | integer value =>
      obtain ⟨y, rounded⟩ := Option.isSome_iff_exists.mp converts
      have itself : RoundsTo (double x).place (double x).place := roundsTo rfl
      have rounds : RoundsTo (integer value).place (double y).place := roundsTo rounded
      rw [Numeral.limit, show Double.ofInt? value = some y from rounded, Option.getD_some]
      exact ⟨rounds.mono itself, itself.mono rounds⟩

end Numeral

namespace Bounds.IsSharpAt

variable {bounds : Bounds} {x : Double} (sharp : bounds.IsSharpAt x) (converts : bounds.Converts)
include sharp converts

theorem comparesAlike {limit : Numeral} (given : limit ∈ bounds.limits) :
    ComparesAlike (.double x) (.double limit.limit) (.double x) limit := by
  refine Numeral.comparesAlike .rfl limit_isOrdered_iff fun ordered limitOrdered => ?_
  obtain ⟨up, down⟩ := limit_mono (converts limit given) x
  have same : (Numeral.double limit.limit).place = (Numeral.double x).place →
      limit.place = (Numeral.double x).place := by
    rw [← isEqual_iff (limit_isOrdered_iff.mpr limitOrdered) ordered,
      ← isEqual_iff limitOrdered ordered]
    exact sharp limit given
  constructor
  · constructor
    · intro less
      exact lt_of_not_ge fun reached => less.not_ge (up reached)
    · intro less
      exact lt_of_le_of_ne (down less.le) fun equal => less.ne (same equal.symm).symm
  · constructor
    · intro less
      exact lt_of_not_ge fun reached => less.not_ge (down reached)
    · intro less
      exact lt_of_le_of_ne (up less.le) fun equal => less.ne (same equal)

theorem contains_rounded_iff : bounds.rounded.Contains (.double x) ↔ bounds.Contains (.double x) :=
  contains_map_iff fun _ given => sharp.comparesAlike converts given

end Bounds.IsSharpAt

/-! ### What is taken as a whole number -/

theorem Value.check_integer_eq_ok_iff {bounds : Bounds} {n : Numeral} {result : Value} :
    (Value.number n).check (.integer bounds) = .ok result ↔
      ∃ x value, n.toDouble? = some x ∧ bounds.rounded.Contains (.double x) ∧
        (Numeral.double x).isEqual (.integer value) = true ∧ result = .integer value := by
  have settled : (Value.number n).check (.integer bounds) = .ok result ↔
      ∃ m, ({ bounds, whole := true } : NumberRule).check n = .ok m ∧ result = .number m := by
    rw [Form.integer, check_atomic rfl, checkWhole_eq_ok_iff]
    constructor
    · rintro (_ | passed)
      exact ⟨_, passed, rfl⟩
    · rintro ⟨m, passed, rfl⟩
      exact .number passed
  rw [settled]
  simp only [NumberRule.check_integer_eq_ok_iff, Bounds.failure?_eq_none_iff_contains,
    isEqual_integer_iff, toInt?, Bool.false_and, true_and]
  constructor
  · rintro ⟨_, ⟨x, value, rounded, within, whole, rfl⟩, rfl⟩
    exact ⟨x, value, rounded, within, whole, rfl⟩
  · rintro ⟨x, value, rounded, within, whole, rfl⟩
    exact ⟨_, ⟨x, value, rounded, within, whole, rfl⟩, rfl⟩

theorem Numeral.rounded_isEqual_iff {n : ℤ} {x : Double} (rounded : Double.ofInt? n = some x) :
    (double x).isEqual (.integer n) = true ↔ Representable (n.natAbs * unitsPerOne) := by
  constructor
  · intro equal
    exact representable_of_double (place_of_isEqual equal).symm
  · intro representable
    obtain ⟨y, exact, place⟩ := toDouble?_exact representable
    obtain rfl : x = y := Option.some.inj (rounded.symm.trans exact)
    have ordered : (integer n).IsOrdered := by simp [IsOrdered]
    exact (isEqual_iff (toDouble?_isOrdered ordered exact) ordered).mpr place

namespace Bounds

variable {bounds : Bounds} {n : ℤ} {x : Double}

theorem keepsInteger_iff (rounded : Double.ofInt? n = some x) :
    bounds.KeepsInteger n ↔ (bounds.Contains (.integer n) →
      Representable (n.natAbs * unitsPerOne) ∧ bounds.rounded.Contains (.double x)) := by
  have taken : (Value.integer n).check (.integer bounds) = .ok (.integer n) ↔
      Representable (n.natAbs * unitsPerOne) ∧ bounds.rounded.Contains (.double x) := by
    rw [Value.check_integer_eq_ok_iff, ← rounded_isEqual_iff rounded]
    constructor
    · rintro ⟨y, value, roundedToo, within, equal, same⟩
      obtain rfl : x = y := Option.some.inj (rounded.symm.trans roundedToo)
      cases same
      exact ⟨equal, within⟩
    · rintro ⟨equal, within⟩
      exact ⟨x, n, rounded, within, equal, rfl⟩
  rw [KeepsInteger, rounded, taken]
  simp only [Option.isSome_some, forall_const]

theorem keepsDouble_iff :
    bounds.KeepsDouble x ↔ ((∃ n : ℤ, (Numeral.double x).isEqual (.integer n) = true) →
      (bounds.rounded.Contains (.double x) ↔ bounds.Contains (.double x))) := by
  have taken (result : Value) : (Value.double x).check (.integer bounds) = .ok result ↔
      ∃ n : ℤ, (Numeral.double x).isEqual (.integer n) = true ∧
        bounds.rounded.Contains (.double x) ∧ result = .integer n := by
    rw [Value.check_integer_eq_ok_iff]
    constructor
    · rintro ⟨_, n, ⟨⟩, within, equal, rfl⟩
      exact ⟨n, equal, within, rfl⟩
    · rintro ⟨n, equal, within, rfl⟩
      exact ⟨x, n, rfl, within, equal, rfl⟩
  constructor
  · rintro kept ⟨n, equal⟩
    have here := kept (.integer n)
    rw [taken] at here
    constructor
    · intro within
      obtain ⟨_, _, within, _⟩ := here.mp ⟨n, equal, within, rfl⟩
      exact within
    · intro within
      obtain ⟨_, _, within, _⟩ := here.mpr ⟨n, equal, within, rfl⟩
      exact within
  · intro same result
    rw [taken]
    refine exists_congr fun n => and_congr_right fun equal => ?_
    rw [same ⟨n, equal⟩]

/-- An integer near a double that satisfies the bounds comes back as it is exactly when doubles can hold it
and the double is within the rounded limits; the double itself is taken exactly as it should be when it is
not whole, or when rounding the limits makes no difference to it.  Where no other limit is rounded to the
double, there is no difference, and what is left is whether doubles can hold the integer. -/
theorem integers_kept_iff (bounds : Bounds) (converts : bounds.Converts) (x : Double) :
    (∀ n : ℤ, Double.ofInt? n = some x →
        (bounds.KeepsInteger n ↔ (bounds.Contains (.integer n) →
          Representable (n.natAbs * unitsPerOne) ∧ bounds.rounded.Contains (.double x)))) ∧
      (bounds.KeepsDouble x ↔ ((∃ n : ℤ, (Numeral.double x).isEqual (.integer n) = true) →
        (bounds.rounded.Contains (.double x) ↔ bounds.Contains (.double x)))) ∧
      (bounds.IsSharpAt x → bounds.KeepsDouble x ∧ ∀ n : ℤ, Double.ofInt? n = some x →
        (bounds.KeepsInteger n ↔ (bounds.Contains (.integer n) →
          Representable (n.natAbs * unitsPerOne)))) := by
  refine ⟨fun n rounded => keepsInteger_iff rounded, keepsDouble_iff, fun sharp => ?_⟩
  have same := sharp.contains_rounded_iff converts
  refine ⟨keepsDouble_iff.mpr fun _ => same, fun n rounded => ?_⟩
  rw [keepsInteger_iff rounded]
  refine forall_congr' fun within => and_iff_left_of_imp fun representable => ?_
  have equal := (rounded_isEqual_iff rounded).mpr representable
  exact same.mpr ((contains_congr equal).mpr within)

def evenDouble : Double := .finite false ⟨9007199254740994 * unitsPerOne, by decide +kernel⟩

theorem integers_kept_even :
    ({ above := some (.integer 0) } : Bounds).Converts ∧
      Double.ofInt? 9007199254740994 = some evenDouble ∧
      ({ above := some (.integer 0) } : Bounds).IsSharpAt evenDouble ∧
      ({ above := some (.integer 0) } : Bounds).Contains (.integer 9007199254740994) ∧
      (Value.integer 9007199254740994).check .positiveInteger =
        .ok (.integer 9007199254740994) ∧
      (Value.double evenDouble).check .positiveInteger = .ok (.integer 9007199254740994) := by
  have converts : ({ above := some (.integer 0) } : Bounds).Converts := by decide +kernel
  have rounded : Double.ofInt? 9007199254740994 = some evenDouble := by decide +kernel
  have sharp : ({ above := some (.integer 0) } : Bounds).IsSharpAt evenDouble := by decide +kernel
  have within : ({ above := some (.integer 0) } : Bounds).Contains (.integer 9007199254740994) := by
    decide +kernel
  obtain ⟨keptDouble, keptInteger⟩ := (integers_kept_iff _ converts _).2.2 sharp
  refine ⟨converts, rounded, sharp, within, ?_, ?_⟩
  · exact (keptInteger _ rounded).mpr (fun _ => by decide +kernel) (by decide +kernel) within
  · exact (keptDouble _).mpr ⟨_, by decide +kernel, by decide +kernel, rfl⟩

/-- The smallest positive integer that no double holds becomes another one, and a limit below it refuses
it.  A limit that no double holds lets a double in that is beyond it. -/
theorem not_integers_kept_odd :
    (Double.ofInt? 9007199254740993).isSome = true ∧
      ({} : Bounds).Contains (.integer 9007199254740993) ∧
      (Value.integer 9007199254740993).check (.integer {}) = .ok (.integer 9007199254740992) ∧
      ¬ ({} : Bounds).KeepsInteger 9007199254740993 ∧
      ¬ ({ above := some (.integer 9007199254740992) } : Bounds).KeepsInteger 9007199254740993 ∧
      ¬ ({ atMost := some (.integer 9007199254740995) } : Bounds).KeepsDouble
        (.finite false ⟨9007199254740996 * unitsPerOne, by decide +kernel⟩) := by
  obtain ⟨x, rounded⟩ : ∃ x, Double.ofInt? 9007199254740993 = some x :=
    Option.isSome_iff_exists.mp (by decide +kernel)
  have unheld : ¬ Representable ((9007199254740993 : ℤ).natAbs * unitsPerOne) := by decide +kernel
  have lost (bounds : Bounds) (within : bounds.Contains (.integer 9007199254740993)) :
      ¬ bounds.KeepsInteger 9007199254740993 := by
    rw [keepsInteger_iff rounded]
    exact fun kept => unheld (kept within).1
  refine ⟨by decide +kernel, by decide +kernel, ?_, lost _ (by decide +kernel),
    lost _ (by decide +kernel), ?_⟩
  · exact Value.check_integer_eq_ok_iff.mpr
      ⟨.finite false ⟨9007199254740992 * unitsPerOne, by decide +kernel⟩, _, by decide +kernel,
        by decide +kernel, by decide +kernel, rfl⟩
  · rw [keepsDouble_iff]
    intro kept
    have same := kept ⟨9007199254740996, by decide +kernel⟩
    exact absurd same (by decide +kernel)

end Bounds

end AnimationGrammar
