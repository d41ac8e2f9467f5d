import AnimationGrammar.Number.Double

/-!
Numbers as documents write them: integers of any size, and doubles.

The two spellings of one value are told apart only by `Numeral` itself.  `Numeral.exactUnits?` is the
value that both have, and `Numeral.isEqual` and `Numeral.isLess` compare by it.
-/

namespace AnimationGrammar

/-- The first integer beyond those of 64 bits with a sign. -/
def wordLimit : Int := 0x8000000000000000

/-- A number: an exact integer, or a double. -/
inductive Numeral
  | integer (value : Int)
  | double (value : Double)
  deriving DecidableEq

namespace Numeral

/-- The exact value in units, for every number that is finite. -/
def exactUnits? : Numeral → Option Int
  | .integer value => some (value * unitsPerOne)
  | .double (.finite negative magnitude) => some (signed negative magnitude.units)
  | .double _ => none

def toInt? : Numeral → Option Int
  | .integer value => some value
  | .double value => value.toInt?

/-- The nearest double, if the number does not overflow. -/
def toDouble? : Numeral → Option Double
  | .integer value => Double.ofInt? value
  | .double value => some value

/-- Whether a number is below another by exact value. -/
def isLess (a b : Numeral) : Bool :=
  match a.exactUnits?, b.exactUnits? with
  | some x, some y => x < y
  | some _, none => match b with
    | .double other => Double.zero.isLess other
    | .integer _ => false
  | none, some _ => match a with
    | .double other => other.isLess Double.zero
    | .integer _ => false
  | none, none => match a, b with
    | .double x, .double y => x.isLess y
    | _, _ => false

/-- Whether two numbers are equal by exact value. -/
def isEqual (a b : Numeral) : Bool :=
  match a.exactUnits?, b.exactUnits? with
  | some x, some y => x == y
  | none, none => match a, b with
    | .double x, .double y => x.isEqual y
    | _, _ => false
  | _, _ => false

def isZero (a : Numeral) : Bool := a.exactUnits? == some 0

end Numeral

end AnimationGrammar
