import AnimationGrammar.Number.Double

/-!
Doubles written in decimal.

`Decimal.magnitude?` reads a decimal as the nearest magnitude.  `Magnitude.shortest` goes the other
way and picks the decimal with the fewest digits that reads back as the same magnitude: of two such
decimals the one nearer to the exact value, and of two equally near ones the even one.  Whatever it
returns reads back, because reading back is the test it searches with.
-/

namespace AnimationGrammar

/-- The number `digits * 10 ^ exponent`. -/
structure Decimal where
  digits : Nat
  exponent : Int
  deriving DecidableEq, Repr

/-- The decimal digits of a number, the leading one first; one zero for zero. -/
def decimalDigits (n : Nat) : List Char := Nat.toDigits 10 n

def digitCount (n : Nat) : Nat := (decimalDigits n).length

namespace Decimal

/-- The decimal as a quotient of units. -/
def units (d : Decimal) : Nat × Nat :=
  if 0 ≤ d.exponent then (d.digits * Nat.pow 10 d.exponent.toNat * unitsPerOne, 1)
  else (d.digits * unitsPerOne, Nat.pow 10 (-d.exponent).toNat)

/--
The nearest magnitude, or nothing when that overflows.  Beyond four hundred places before or after
the point the answer needs no computation.
-/
def magnitude? (d : Decimal) : Option Magnitude :=
  if d.digits = 0 then some .zero
  else
    let places := (digitCount d.digits : Int) + d.exponent
    if 400 < places then none
    else if places < -400 then some .zero
    else Magnitude.ofUnits? d.units.1 d.units.2

/-- The exponent of the leading digit. -/
def leadingExponent (d : Decimal) : Int := (digitCount d.digits : Int) - 1 + d.exponent

end Decimal

def Double.ofDecimal (negative : Bool) (d : Decimal) : Double :=
  match d.magnitude? with
  | some magnitude => .finite negative magnitude
  | none => .infinite negative

namespace Magnitude

def leadingExponent (magnitude : Magnitude) : Int :=
  (digitCount (magnitude.units * Nat.pow 10 340 / unitsPerOne) : Int) - 1 - 340

/-- The decimals on the grid `10 ^ exponent` next to a magnitude, the nearest one first. -/
def neighbours (magnitude : Magnitude) (exponent : Int) : List Decimal :=
  let numerator :=
    if 0 ≤ exponent then magnitude.units else magnitude.units * Nat.pow 10 (-exponent).toNat
  let denominator :=
    if 0 ≤ exponent then unitsPerOne * Nat.pow 10 exponent.toNat else unitsPerOne
  let below := numerator / denominator
  let nearest := divideToNearest numerator denominator
  [⟨nearest, exponent⟩, ⟨if nearest = below then below + 1 else below, exponent⟩]

/-- The exact value, with as many digits as it takes. -/
def exact (magnitude : Magnitude) : Decimal := ⟨magnitude.units * Nat.pow 5 1074, -1074⟩

/--
The shortest decimal that reads back as the magnitude.  The first grid tried is coarser than the
leading digit, for a magnitude that rounds up to a power of ten.
-/
def shortest (magnitude : Magnitude) : Decimal :=
  if magnitude.units = 0 then ⟨0, 0⟩
  else
    let leading := magnitude.leadingExponent
    let candidates := (List.range 18).flatMap fun (places : Nat) =>
      magnitude.neighbours (leading + 1 - places)
    (candidates.find? fun d => d.magnitude? == some magnitude).getD magnitude.exact

end Magnitude

end AnimationGrammar
