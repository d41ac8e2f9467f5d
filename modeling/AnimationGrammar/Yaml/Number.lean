import AnimationGrammar.Number.Decimal
import AnimationGrammar.Json.Reader
import AnimationGrammar.Text.CharClass
import AnimationGrammar.Yaml.Problem

/-!
Numbers of YAML 1.1: how they are spelled, and what they are worth.

The spellings decide which plain scalars are numbers.  What a scalar is worth is settled separately,
because a tag can call any scalar a number: such a scalar may have blanks around it and digits of any
script, and it may turn out to be no number at all.

Numbers may be written in base sixty, with colons between the places.
-/

namespace AnimationGrammar.Yaml

open Json (digitsValue hexValue? takeDigits)

/-! ### Spellings -/

/-- A sign, and the text after it. -/
def splitSign : List Char → Bool × List Char
  | '-' :: rest => (true, rest)
  | '+' :: rest => (false, rest)
  | rest => (false, rest)

def withoutSign (text : List Char) : List Char := (splitSign text).2

def isDigitOrUnderscore (c : Char) : Bool := c.isDigit || c == '_'

/-- A place of a number in base sixty other than the first. -/
def isSixtyPlace : List Char → Bool
  | [a] => a.isDigit
  | [a, b] => '0' ≤ a && a ≤ '5' && b.isDigit
  | _ => false

/-- Digits and underscores in which the first is a digit. -/
def isDigitRun (text : List Char) : Bool :=
  text.head?.any Char.isDigit && text.all isDigitOrUnderscore

/-- Several places of a number in base sixty. -/
def isSixtyRun (text : List Char) : Bool :=
  match text.splitOn ':' with
  | first :: second :: rest => isDigitRun first && (second :: rest).all isSixtyPlace
  | _ => false

/-- Whether a plain scalar is an integer: in binary, octal, decimal, hexadecimal or base sixty. -/
def isIntegerText (text : List Char) : Bool :=
  match withoutSign text with
  | '0' :: 'b' :: digits => !digits.isEmpty && digits.all fun c => c == '0' || c == '1' || c == '_'
  | '0' :: 'x' :: digits => !digits.isEmpty && digits.all fun c => (hexValue? c).isSome || c == '_'
  | '0' :: digits => digits.all fun c => ('0' ≤ c && c ≤ '7') || c == '_'
  | unsigned => isDigitRun unsigned || isSixtyRun unsigned

/-- An exponent with its sign, or nothing. -/
def isExponent : List Char → Bool
  | [] => true
  | mark :: sign :: digits =>
      (mark == 'e' || mark == 'E') && (sign == '-' || sign == '+') && !digits.isEmpty &&
        digits.all Char.isDigit
  | [_] => false

/-- Whether a plain scalar is a double: it has a point, and an exponent has a sign. -/
def isDoubleText (text : List Char) : Bool :=
  let unsigned := withoutSign text
  let isSigned : Bool := unsigned.length < text.length
  let (whole, rest) := unsigned.span (· != '.')
  match rest with
  | [] => false
  | _ :: later =>
      let (fraction, ending) := later.span isDigitOrUnderscore
      (isDigitRun whole && isExponent ending) ||
        (isSixtyRun whole && ending.isEmpty) ||
        (whole.isEmpty && !isSigned && isDigitRun fraction && isExponent ending) ||
        unsigned ∈ [".inf".toList, ".Inf".toList, ".INF".toList] ||
        text ∈ [".nan".toList, ".NaN".toList, ".NAN".toList]

/-! ### Values -/

/-- A digit of any script as the one of ASCII. -/
def plainDigit (c : Char) : Char :=
  match decimalValue? c with
  | some value => Char.ofNat ('0'.toNat + value)
  | none => c

def trimStart (text : List Char) : List Char := text.dropWhile isBlankChar

def trimEnds (text : List Char) : List Char := (trimStart (trimStart text).reverse).reverse

/-- The digits of a base at the start of a text. -/
def spanBase (base : Nat) (text : List Char) : List Char × List Char :=
  text.span fun c => (hexValue? c).any (· < base)

/-- The number that digits in a base stand for. -/
def baseValue (base : Nat) (digits : List Char) : Nat :=
  digits.foldl (fun value c => value * base + (hexValue? c).getD 0) 0

/-- The text after the mark of a base, if that is how it starts. -/
def dropBaseMark (base : Nat) (text : List Char) : List Char :=
  match text with
  | '0' :: mark :: rest =>
      let marks := match base with
        | 2 => ['b', 'B']
        | 8 => ['o', 'O']
        | 16 => ['x', 'X']
        | _ => []
      if mark ∈ marks then rest else text
  | _ => text

/-- The integer that a text in a base stands for; a decimal one has a limited number of digits. -/
def readBase (base : Nat) (text : List Char) : Except Problem Int :=
  let (negative, unsigned) := splitSign ((trimEnds text).map plainDigit)
  let unmarked := dropBaseMark base unsigned
  let (digits, rest) := spanBase base unmarked
  if base = 10 && Json.digitLimit < digits.length then .error (.tooManyDigits digits.length)
  else if digits.isEmpty || !rest.isEmpty then
    .error (.notInteger base (String.ofList text))
  else .ok (signed negative (baseValue base digits))

/-- The number that places in base sixty stand for, the first place being the highest. -/
def sixtyInteger (places : List Int) : Int := places.foldl (fun value place => value * 60 + place) 0

/-- The digits of a number, with its sign apart. -/
def numberParts (text : String) : Except Problem (Bool × List Char) :=
  match text.toList.filter (· != '_') with
  | [] => .error (.fatal .emptyNumber)
  | digits => .ok (splitSign digits)

def readInteger (text : String) : Except Problem Int := do
  let (negative, unsigned) ← numberParts text
  let value ← match unsigned with
    | [] => .error (.fatal .emptyNumber)
    | '0' :: 'b' :: digits => readBase 2 digits
    | '0' :: 'x' :: digits => readBase 16 digits
    | ['0'] => .ok 0
    | '0' :: digits => readBase 8 ('0' :: digits)
    | digits =>
        if ':' ∈ digits then ((digits.splitOn ':').mapM (readBase 10)).map sixtyInteger
        else readBase 10 digits
  return if negative then -value else value

/-- The double of digits around a point, with an exponent. -/
def pointedDouble? (negative : Bool) (text : List Char) : Option Double :=
  let (whole, rest) := takeDigits text
  let (fraction, ending) := match rest with
    | '.' :: later => takeDigits later
    | later => ([], later)
  if whole.isEmpty && fraction.isEmpty then none
  else
    let decimal (power : Int) : Double :=
      Double.ofDecimal negative ⟨digitsValue (whole ++ fraction), power - fraction.length⟩
    match ending with
    | [] => some (decimal 0)
    | 'e' :: exponent =>
        let (down, digits) := splitSign exponent
        if digits.isEmpty || !digits.all Char.isDigit then none
        else some (decimal (signed down (digitsValue digits)))
    | _ => none

/-- The double that a text in small letters stands for. -/
def readPointed (text : List Char) : Except Problem Double :=
  let (negative, unsigned) := splitSign ((trimEnds text).map plainDigit)
  let found :=
    if unsigned ∈ ["inf".toList, "infinity".toList] then some (.infinite negative)
    else if unsigned = "nan".toList then some .notANumber
    else pointedDouble? negative unsigned
  match found with
  | some value => .ok value
  | none => .error (.notDouble (String.ofList text))

/-- A place of a number in base sixty, by how many places it stands before the last one. -/
def sixtyPlace (position : Nat) (place : Double) : Except Problem Double :=
  match Double.ofInt? (Nat.pow 60 position : Nat) with
  | some weight => .ok (place.multiply weight)
  | none => .error (.fatal .overflow)

/-- The double that places in base sixty stand for, added up from the last place on. -/
def sixtyDouble (places : List Double) : Except Problem Double :=
  (places.reverse.zipIdx).foldlM (fun sum (place, position) =>
    (sixtyPlace position place).map sum.add) .zero

def readDouble (text : String) : Except Problem Double := do
  let (negative, unsigned) ← numberParts (String.ofList (text.toList.map Char.toLower))
  let value ←
    if unsigned = ".inf".toList then .ok (.infinite false)
    else if unsigned = ".nan".toList then .ok .notANumber
    else if ':' ∈ unsigned then
      sixtyDouble (← (unsigned.splitOn ':').mapM readPointed)
    else readPointed unsigned
  return if negative then value.negate else value

end AnimationGrammar.Yaml
