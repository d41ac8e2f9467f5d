import AnimationGrammar.Value.Display

/-!
Why a YAML document has no value.

Most problems are reported of the file that holds the document.  A few are fatal: they end whatever
was about to use the value.
-/

namespace AnimationGrammar.Yaml

/-- A problem that nobody reports. -/
inductive FatalProblem
  /-- A scalar is tagged as a boolean and is spelled like none. -/
  | unknownBoolean
  /-- A scalar is tagged as a number and has no digits. -/
  | emptyNumber
  /-- A scalar is tagged as a moment and is spelled like none. -/
  | unknownMoment
  /-- A number is beyond what the reading of it can hold. -/
  | overflow
  /-- The document reads well, but as something that is no value here: a set, which has no order that the
  text tells, or a collection with an alias of itself inside of it. -/
  | notRepresented
  deriving DecidableEq

/-- The class of errors that a fatal problem belongs to. -/
def FatalProblem.typeName : FatalProblem → String
  | unknownBoolean => "KeyError"
  | emptyNumber => "IndexError"
  | unknownMoment => "AttributeError"
  | overflow => "OverflowError"
  | notRepresented => "NotImplementedError"

/-- Why a document could not be read. -/
inductive Problem
  /-- The document does not follow the grammar. -/
  | malformed
  /-- An escape names a code point beyond the last one. -/
  | codePointTooLarge
  | tooManyDigits (count : Nat)
  | notInteger (base : Nat) (text : String)
  | notDouble (text : String)
  | yearOutOfRange (year : Nat)
  | monthOutOfRange
  | dayOutOfRange
  | hourOutOfRange
  | minuteOutOfRange
  | secondOutOfRange
  /-- A distance from universal time that is a day or more. -/
  | zoneOutOfRange (minutes : Int)
  | fatal (problem : FatalProblem)
  deriving DecidableEq

def Problem.message : Problem → String
  | malformed => "malformed document"
  | codePointTooLarge => "chr() arg not in range(0x110000)"
  | tooManyDigits count =>
      "Exceeds the limit (4300 digits) for integer string conversion: value has " ++
        integerText count ++ " digits; use sys.set_int_max_str_digits() to increase the limit"
  | notInteger base text =>
      "invalid literal for int() with base " ++ integerText base ++ ": " ++
        String.ofList ((namedQuoted text).toList.take 200)
  | notDouble text => "could not convert string to float: " ++ namedQuoted text
  | yearOutOfRange year => "year " ++ integerText year ++ " is out of range"
  | monthOutOfRange => "month must be in 1..12"
  | dayOutOfRange => "day is out of range for month"
  | hourOutOfRange => "hour must be in 0..23"
  | minuteOutOfRange => "minute must be in 0..59"
  | secondOutOfRange => "second must be in 0..59"
  | zoneOutOfRange minutes =>
      "offset must be a timedelta strictly between -timedelta(hours=24) and " ++
        "timedelta(hours=24), not " ++ Timestamp.durationLiteral minutes ++ "."
  | fatal problem => problem.typeName

def malformed {α : Type} : Except Problem α := .error .malformed

end AnimationGrammar.Yaml
