/-!
Double-precision numbers, given exactly.

A finite double is a sign and a magnitude, and a magnitude is a natural number of units of
`2 ^ -1074`, the distance between the smallest doubles.  `Representable` says which numbers of
units a double can hold: at most fifty-three significant bits, below the overflow limit.  Every
comparison and every rounding is then a matter of whole numbers.
-/

namespace AnimationGrammar

/-- The quotient rounded to the nearest whole number, a half going to the even neighbour. -/
def divideToNearest (dividend divisor : Nat) : Nat :=
  let quotient := dividend / divisor
  let twiceRest := 2 * (dividend % divisor)
  if twiceRest < divisor then quotient
  else if divisor < twiceRest then quotient + 1
  else if quotient % 2 = 0 then quotient
  else quotient + 1

/-- How many units make one. -/
def unitsPerOne : Nat := Nat.pow 2 1074

/-- The numbers of units that are the magnitude of a finite double. -/
def Representable (units : Nat) : Prop :=
  units < Nat.pow 2 2098 ∧ units % Nat.pow 2 (units.log2 - 52) = 0

instance (units : Nat) : Decidable (Representable units) :=
  inferInstanceAs (Decidable (_ ∧ _))

/-- The absolute value of a finite double. -/
structure Magnitude where
  units : Nat
  representable : Representable units
  deriving DecidableEq

namespace Magnitude

def zero : Magnitude := ⟨0, by decide +kernel⟩

/--
The magnitude nearest to `numerator / denominator` units, ties going to the even significand;
nothing when that overflows.
-/
def ofUnits? (numerator denominator : Nat) : Option Magnitude :=
  let spacing := Nat.pow 2 ((numerator / denominator).log2 - 52)
  let units := divideToNearest numerator (denominator * spacing) * spacing
  if representable : Representable units then some ⟨units, representable⟩ else none

/-- The whole number that a magnitude is, if it is one. -/
def whole? (magnitude : Magnitude) : Option Nat :=
  if magnitude.units % unitsPerOne = 0 then some (magnitude.units / unitsPerOne) else none

end Magnitude

/-- A double: zero keeps its sign, and there are two infinities and one value that is no number. -/
inductive Double
  | finite (negative : Bool) (magnitude : Magnitude)
  | infinite (negative : Bool)
  | notANumber
  deriving DecidableEq

/-- A number of units with the sign put before it. -/
def signed (negative : Bool) (magnitude : Nat) : Int :=
  if negative then -(magnitude : Int) else magnitude

namespace Double

def zero : Double := .finite false .zero

/-- The double nearest to a quotient of units; beyond the largest double lies infinity. -/
def ofUnits (negative : Bool) (numerator denominator : Nat) : Double :=
  match Magnitude.ofUnits? numerator denominator with
  | some magnitude => .finite negative magnitude
  | none => .infinite negative

/-- The double nearest to an integer, if the integer is not too large for every finite double. -/
def ofInt? (value : Int) : Option Double :=
  (Magnitude.ofUnits? (value.natAbs * unitsPerOne) 1).map (.finite (value < 0))

/-- The integer that a double is equal to, if there is one. -/
def toInt? : Double → Option Int
  | .finite negative magnitude => magnitude.whole?.map (signed negative)
  | .infinite _ => none
  | .notANumber => none

/-- The order of doubles; what is not a number stands in no order. -/
def isLess : Double → Double → Bool
  | .finite n a, .finite m b => signed n a.units < signed m b.units
  | .finite _ _, .infinite m => !m
  | .infinite n, .finite _ _ => n
  | .infinite n, .infinite m => n && !m
  | .notANumber, _ => false
  | _, .notANumber => false

/-- Equality of values: both zeros are equal, and what is not a number is equal to nothing. -/
def isEqual : Double → Double → Bool
  | .finite n a, .finite m b => signed n a.units == signed m b.units
  | .infinite n, .infinite m => n == m
  | _, _ => false

def isAtMost (a b : Double) : Bool := a.isLess b || a.isEqual b

def isZero (a : Double) : Bool := a.isEqual zero

def negate : Double → Double
  | .finite negative magnitude => .finite (!negative) magnitude
  | .infinite negative => .infinite (!negative)
  | .notANumber => .notANumber

/-- The exact sum, rounded once.  A sum of zero is negative only when both terms are. -/
def add : Double → Double → Double
  | .finite n a, .finite m b =>
      let sum := signed n a.units + signed m b.units
      if sum = 0 then .finite (n && m) .zero else ofUnits (sum < 0) sum.natAbs 1
  | .infinite n, .infinite m => if n = m then .infinite n else .notANumber
  | .infinite n, .finite _ _ => .infinite n
  | .finite _ _, .infinite m => .infinite m
  | .notANumber, _ => .notANumber
  | _, .notANumber => .notANumber

def subtract (a b : Double) : Double := a.add b.negate

def multiply : Double → Double → Double
  | .finite n a, .finite m b => ofUnits (n != m) (a.units * b.units) unitsPerOne
  | .infinite n, .infinite m => .infinite (n != m)
  | .infinite n, .finite m b => if b.units = 0 then .notANumber else .infinite (n != m)
  | .finite n a, .infinite m => if a.units = 0 then .notANumber else .infinite (n != m)
  | .notANumber, _ => .notANumber
  | _, .notANumber => .notANumber

end Double

end AnimationGrammar
