import AnimationGrammar.Grammar.ModelName
import AnimationGrammar.Number.Numeral
import AnimationGrammar.Text.Utf8

/-!
The values that documents hold and that validation produces.

A document is made of atoms, lists and mappings; a mapping keeps the order of its keys.  Keys are
atoms, and in a document written as JSON they are texts.  Validation adds tuples, which are lists of
fixed length, and records, which are objects known to follow a model.
-/

namespace AnimationGrammar

/-- A time of day, with the distance from universal time in minutes where it is known. -/
structure Clock where
  hour : Nat
  minute : Nat
  second : Nat
  microsecond : Nat
  offsetMinutes : Option Int
  deriving DecidableEq

/-- A day, or a moment of it. -/
structure Timestamp where
  year : Nat
  month : Nat
  day : Nat
  clock : Option Clock
  deriving DecidableEq

def isLeapYear (year : Nat) : Bool := year % 4 == 0 && (year % 100 != 0 || year % 400 == 0)

def daysInMonth (year month : Nat) : Nat :=
  if month = 2 then (if isLeapYear year then 29 else 28)
  else if month ∈ [4, 6, 9, 11] then 30
  else 31

namespace Timestamp

/-- The number of a day, counted from the first day of the first year. -/
def dayNumber (t : Timestamp) : Nat :=
  let years := t.year - 1
  let months := (List.range t.month).drop 1
  months.foldl (fun days month => days + daysInMonth t.year month)
    (365 * years + years / 4 - years / 100 + years / 400 + t.day)

/-- When a moment is in universal time, in microseconds, if that is known. -/
def instant? (t : Timestamp) : Option Int :=
  t.clock.bind fun c => c.offsetMinutes.map fun offset =>
    (((((t.dayNumber * 24 + c.hour) * 60 + c.minute : Nat) : Int) - offset) * 60 + c.second) * 1000000 +
      c.microsecond

end Timestamp

/-- A value without parts. -/
inductive Atom
  | null
  | boolean (value : Bool)
  | number (value : Numeral)
  | text (value : String)
  | time (value : Timestamp)
  | bytes (content : List Nat)
  deriving DecidableEq

namespace Atom

/-- An atom in which bytes that are a text in UTF-8 are that text. -/
def asText : Atom → Atom
  | bytes content =>
      match Utf8.decode content with
      | .ok decoded => text decoded
      | .error _ => bytes content
  | other => other

/-- The value of a boolean or a number as a number. -/
def numeral? : Atom → Option Numeral
  | boolean value => some (.integer (if value then 1 else 0))
  | number value => some value
  | _ => none

/-- Whether two atoms are one and the same key: numbers compare by value, and moments of which the
distance from universal time is known compare by when they are. -/
def isSameKey (a b : Atom) : Bool :=
  match a.numeral?, b.numeral? with
  | some x, some y => x.isEqual y || (a = b && x = .double .notANumber)
  | none, none =>
      match a, b with
      | time t, time u =>
          match t.instant?, u.instant? with
          | some x, some y => x = y
          | _, _ => t = u
      | a, b => a = b
  | _, _ => false

/-- The number of digits up to which an integer has a text. -/
def textDigits : Nat := 4300

/-- Whether an atom is an integer that is too long to be written. -/
def isLongNumber : Atom → Bool
  | number (.integer n) => Nat.pow 10 textDigits ≤ n.natAbs
  | _ => false

end Atom

/-- A value of a document, or the result of validating one. -/
inductive Value
  | atom (value : Atom)
  | list (items : List Value)
  | tuple (items : List Value)
  | mapping (entries : List (Atom × Value))
  /-- An object that follows a model, with the fields that were given. -/
  | record (model : ModelName) (fields : List (String × Value))

/-- The kinds of values that JSON tells apart. -/
inductive Kind
  | null | boolean | number | string | array | object
  deriving DecidableEq

def Kind.label : Kind → String
  | null => "null"
  | boolean => "boolean"
  | number => "number"
  | string => "string"
  | array => "array"
  | object => "object"

/-- The entry under a text key. -/
def lookupText {α : Type} (name : String) : List (Atom × α) → Option α
  | [] => none
  | (key, value) :: rest => if key = .text name then some value else lookupText name rest

namespace Value

@[match_pattern] abbrev null : Value := .atom .null
@[match_pattern] abbrev boolean (value : Bool) : Value := .atom (.boolean value)
@[match_pattern] abbrev number (value : Numeral) : Value := .atom (.number value)
@[match_pattern] abbrev integer (value : Int) : Value := .atom (.number (.integer value))
@[match_pattern] abbrev double (value : Double) : Value := .atom (.number (.double value))
@[match_pattern] abbrev text (value : String) : Value := .atom (.text value)

/-- The kind of an atom; times and bytes are of no kind that JSON knows. -/
def atomKind? : Atom → Option Kind
  | .null => some .null
  | .boolean _ => some .boolean
  | .number _ => some .number
  | .text _ => some .string
  | .time _ => none
  | .bytes _ => none

/-- The kind of a value: tuples count as arrays, records as objects. -/
def kind? : Value → Option Kind
  | .atom a => atomKind? a
  | .list _ => some .array
  | .tuple _ => some .array
  | .mapping _ => some .object
  | .record _ _ => some .object

/-- A mapping whose keys are texts. -/
def object (entries : List (String × Value)) : Value :=
  .mapping (entries.map fun (name, value) => (.text name, value))

/-- The value under a text key, of a mapping or a record. -/
def get? (name : String) : Value → Option Value
  | .mapping entries => lookupText name entries
  | .record _ fields => fields.lookup name
  | _ => none

def items? : Value → Option (List Value)
  | .list items => some items
  | .tuple items => some items
  | _ => none

/-- Whether a value counts as given: not false, not null, not zero and not empty. -/
def isTruthy : Value → Bool
  | .atom .null => false
  | .atom (.boolean value) => value
  | .atom (.number value) => !value.isZero
  | .atom (.text value) => value != ""
  | .atom (.time _) => true
  | .atom (.bytes content) => !content.isEmpty
  | .list items => !items.isEmpty
  | .tuple items => !items.isEmpty
  | .mapping entries => !entries.isEmpty
  | .record _ _ => true

mutual

/-- Whether two values are equal: numbers compare by value, and mappings without regard to the order of
their keys.  No record is equal to anything. -/
def isEqual : Value → Value → Bool
  | .atom a, .atom b => a.isSameKey b
  | .list xs, .list ys => areEqual xs ys
  | .tuple xs, .tuple ys => areEqual xs ys
  | .mapping xs, .mapping ys => xs.length == ys.length && areEntriesOf ys xs
  | _, _ => false

def areEqual : List Value → List Value → Bool
  | [], [] => true
  | x :: xs, y :: ys => x.isEqual y && areEqual xs ys
  | _, _ => false

/-- Whether every entry of the second list is one of the first. -/
def areEntriesOf (ys : List (Atom × Value)) : List (Atom × Value) → Bool
  | [] => true
  | (key, x) :: xs =>
      (match ys.find? fun (other, _) => key.isSameKey other with
        | some (_, y) => x.isEqual y
        | none => false) && areEntriesOf ys xs

end

end Value

end AnimationGrammar
