import AnimationGrammar.Number.Layout
import AnimationGrammar.Text.Quoted
import AnimationGrammar.Value.Basic

/-!
Values as they appear inside messages.

`Value.literal` writes a value so that its kind can be told from the text: texts are quoted.
`Value.display` leaves a text by itself unquoted.
-/

namespace AnimationGrammar

/-- A number of at least the given number of digits. -/
def paddedNumber (width n : Nat) : String :=
  let digits := decimalDigits n
  String.ofList (List.replicate (width - digits.length) '0' ++ digits)

/-- A number in a message: a double keeps its point. -/
def Numeral.display : Numeral → String
  | .integer value => integerText value
  | .double value => reportLayout.doubleText value

namespace Timestamp

/-- The distance from universal time, with a sign and a colon. -/
def offsetText (minutes : Int) : String :=
  (if minutes < 0 then "-" else "+") ++ paddedNumber 2 (minutes.natAbs / 60) ++ ":" ++
    paddedNumber 2 (minutes.natAbs % 60)

/-- A moment in the form year, month and day, then the time of day after the given mark. -/
def isoText (mark : String) (t : Timestamp) : String :=
  let day := paddedNumber 4 t.year ++ "-" ++ paddedNumber 2 t.month ++ "-" ++ paddedNumber 2 t.day
  match t.clock with
  | none => day
  | some c =>
      day ++ mark ++ paddedNumber 2 c.hour ++ ":" ++ paddedNumber 2 c.minute ++ ":" ++
        paddedNumber 2 c.second ++
        (if c.microsecond = 0 then "" else "." ++ paddedNumber 6 c.microsecond) ++
        (c.offsetMinutes.map offsetText).getD ""

def durationLiteral (minutes : Int) : String :=
  let days := minutes.fdiv 1440
  let seconds := (minutes - days * 1440) * 60
  let parts := (if days = 0 then [] else ["days=" ++ integerText days]) ++
    (if seconds = 0 then [] else ["seconds=" ++ integerText seconds])
  "datetime.timedelta(" ++ ", ".intercalate parts ++ ")"

/-- What an offset from universal time is called. -/
def zoneLiteral (minutes : Int) : String :=
  if minutes = 0 then "datetime.timezone.utc"
  else "datetime.timezone(" ++ durationLiteral minutes ++ ")"

/-- A moment as a call that makes it. -/
def literal (t : Timestamp) : String :=
  let numbers (parts : List Nat) := ", ".intercalate (parts.map fun (n : Nat) => integerText n)
  match t.clock with
  | none => "datetime.date(" ++ numbers [t.year, t.month, t.day] ++ ")"
  | some c =>
      let fine := if c.microsecond ≠ 0 then [c.second, c.microsecond]
        else if c.second ≠ 0 then [c.second] else []
      "datetime.datetime(" ++ numbers ([t.year, t.month, t.day, c.hour, c.minute] ++ fine) ++
        (c.offsetMinutes.map fun minutes => ", tzinfo=" ++ zoneLiteral minutes).getD "" ++ ")"

/-- What kind of moment it is. -/
def typeName (t : Timestamp) : String := if t.clock.isSome then "datetime" else "date"

end Timestamp

/-- A byte between quotes: one that is no printable character of ASCII is written out. -/
def byteEscaped (quote : Char) (byte : Nat) : List Char :=
  let c := Char.ofNat byte
  if c = quote || c = '\\' then ['\\', c]
  else if c = '\t' then ['\\', 't']
  else if c = '\n' then ['\\', 'n']
  else if c = '\r' then ['\\', 'r']
  else if 32 ≤ byte && byte < 127 then [c]
  else '\\' :: 'x' :: hexText 2 byte

/-- Bytes in a message, with the quotes that a name would have. -/
def quotedBytes (bytes : List Nat) : String :=
  let quote := if '\''.toNat ∈ bytes && !('"'.toNat ∈ bytes) then '"' else '\''
  String.ofList ('b' :: quote :: bytes.flatMap (byteEscaped quote) ++ [quote])

namespace Atom

/-- An atom by itself. -/
def display : Atom → String
  | null => "None"
  | boolean value => if value then "True" else "False"
  | number value => value.display
  | text value => value
  | time value => value.isoText " "
  | bytes content => quotedBytes content

/-- An atom with its kind recognisable. -/
def literal : Atom → String
  | text value => namedQuoted value
  | time value => value.literal
  | other => other.display

end Atom

namespace Value

mutual

/-- A value with the kinds of all its parts recognisable. -/
def literal : Value → String
  | .atom a => a.literal
  | .list items => "[" ++ ", ".intercalate (literals items) ++ "]"
  | .tuple items => match literals items with
      | [only] => "(" ++ only ++ ",)"
      | several => "(" ++ ", ".intercalate several ++ ")"
  | .mapping entries => "\x7b" ++ ", ".intercalate (entryLiterals entries) ++ "\x7d"
  | .record model fields =>
      model.label ++ "(" ++ ", ".intercalate (fieldLiterals fields) ++ ")"

def literals : List Value → List String
  | [] => []
  | item :: rest => item.literal :: literals rest

def entryLiterals : List (Atom × Value) → List String
  | [] => []
  | (key, value) :: rest => (key.literal ++ ": " ++ value.literal) :: entryLiterals rest

def fieldLiterals : List (String × Value) → List String
  | [] => []
  | (name, value) :: rest => (name ++ "=" ++ value.literal) :: fieldLiterals rest

end

/-- A value by itself: a text is not quoted. -/
def display : Value → String
  | .atom a => a.display
  | value => value.literal

/-- What a value is called by its type. -/
def typeLabel : Value → String
  | .atom .null => "NoneType"
  | .atom (.boolean _) => "bool"
  | .atom (.number (.integer _)) => "int"
  | .atom (.number (.double _)) => "float"
  | .atom (.text _) => "str"
  | .atom (.time time) => time.typeName
  | .atom (.bytes _) => "bytes"
  | .list _ => "list"
  | .tuple _ => "tuple"
  | .mapping _ => "dict"
  | .record model _ => model.label

end Value

end AnimationGrammar
