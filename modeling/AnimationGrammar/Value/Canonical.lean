import AnimationGrammar.Grammar.Model
import AnimationGrammar.Value.Display

/-!
The canonical text of a value.

The text does not depend on the order of keys, nor on whether a whole number was written as an integer
or as a double.  Two values are duplicates of each other when their canonical texts agree.

Integers of too many digits are never written.  `Value.canonicalText` is the text that a value would have
with numbers of any length, and `Value.canonicalJson` gives it as far as it can be written; in the same way
`Value.hasDuplicates` compares all items of a list, and `Value.findDuplicates` goes through them up to the
first that has no text.
-/

namespace AnimationGrammar

/-- How doubles that are not whole are written. -/
def canonicalLayout : NumberLayout :=
  { reportLayout with infinity := "Infinity", notANumber := "NaN" }

/-- A number; whole numbers are written as integers. -/
def Numeral.canonicalText (n : Numeral) : String :=
  match n with
  | .integer value => integerText value
  | .double value =>
      match value.toInt? with
      | some whole => integerText whole
      | none => canonicalLayout.doubleText value

/-- What bytes are a text of.  Bytes that are no text in UTF-8 have no canonical text; here they are shown as in
a message. -/
def textOfBytes (bytes : List Nat) : String :=
  match Utf8.decode bytes with
  | .ok decoded => decoded
  | .error _ => quotedBytes bytes

namespace Atom

def canonicalText : Atom → String
  | null => "null"
  | boolean value => if value then "true" else "false"
  | number value => value.canonicalText
  | text value => asciiQuoted value
  | time value => asciiQuoted (value.isoText "T")
  | bytes content => asciiQuoted (textOfBytes content)

def keyText : Atom → String
  | text value => value
  | boolean value => if value then "true" else "false"
  | time value => value.isoText "T"
  | bytes content => textOfBytes content
  | other => other.display

end Atom

/-- Members of an object, sorted by name. -/
def sortByName {α : Type} (members : List (String × α)) : List (String × α) :=
  members.mergeSort fun a b => a.1 ≤ b.1

def canonicalObject (members : List (String × String)) : String :=
  "\x7b" ++ ",".intercalate ((sortByName members).map fun (name, body) =>
    asciiQuoted name ++ ":" ++ body) ++ "\x7d"

def canonicalList (items : List String) : String := "[" ++ ",".intercalate items ++ "]"

/-- Why a value has no canonical text: a number in it is too long to be written. -/
inductive NumberTooLong
  | numberTooLong
  deriving DecidableEq

namespace Value

mutual

/-- The canonical text of a value.  A record shows all fields of its model, those not given as null. -/
def canonicalText : Value → String
  | .atom a => a.canonicalText
  | .list items => canonicalList (canonicalTexts items)
  | .tuple items => canonicalList (canonicalTexts items)
  | .mapping entries => canonicalObject (canonicalEntries entries)
  | .record model fields =>
      let given := canonicalFields fields
      canonicalObject (model.definition.fieldNames.map fun name =>
        (name, (given.lookup name).getD "null"))

def canonicalTexts : List Value → List String
  | [] => []
  | item :: rest => item.canonicalText :: canonicalTexts rest

def canonicalEntries : List (Atom × Value) → List (String × String)
  | [] => []
  | (key, value) :: rest => (key.keyText, value.canonicalText) :: canonicalEntries rest

def canonicalFields : List (String × Value) → List (String × String)
  | [] => []
  | (name, value) :: rest => (name, value.canonicalText) :: canonicalFields rest

end

mutual

/-- Whether a number occurs in a value that is too long to be written. -/
def hasLongNumber : Value → Bool
  | .atom a => a.isLongNumber
  | .list items => anyLongNumber items
  | .tuple items => anyLongNumber items
  | .mapping entries => anyLongEntry entries
  | .record _ fields => anyLongField fields

def anyLongNumber : List Value → Bool
  | [] => false
  | item :: rest => item.hasLongNumber || anyLongNumber rest

def anyLongEntry : List (Atom × Value) → Bool
  | [] => false
  | (key, value) :: rest => key.isLongNumber || value.hasLongNumber || anyLongEntry rest

def anyLongField : List (String × Value) → Bool
  | [] => false
  | (_, value) :: rest => value.hasLongNumber || anyLongField rest

end

/-- Whether a text stands in a list twice. -/
def repeats : List String → Bool
  | [] => false
  | first :: rest => first ∈ rest || repeats rest

/-- Whether two items of a list are the same but for the order of keys and the spelling of numbers. -/
def hasDuplicates (items : List Value) : Bool := repeats (canonicalTexts items)

/-- The canonical text of a value, unless a number in it is too long to be written. -/
def canonicalJson (value : Value) : Except NumberTooLong String :=
  if value.hasLongNumber then .error .numberTooLong else .ok value.canonicalText

/-- Whether an item has a text that was seen before it. -/
def findDuplicatesAfter (seen : List String) : List Value → Except NumberTooLong Bool
  | [] => .ok false
  | item :: rest =>
      match item.canonicalJson with
      | .error problem => .error problem
      | .ok found => if found ∈ seen then .ok true else findDuplicatesAfter (found :: seen) rest

/-- Look for an item that is the same as one before it. -/
def findDuplicates (items : List Value) : Except NumberTooLong Bool := findDuplicatesAfter [] items

end Value

end AnimationGrammar
