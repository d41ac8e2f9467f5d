import AnimationGrammar.Grammar.Form
import AnimationGrammar.Number.Layout
import AnimationGrammar.Value.Display

/-!
Faults: what validation finds wrong with a value, and where.

The location of a fault lists the steps by which validation reached the faulty place.  Besides keys
and positions it holds the labels of the union branches that were entered on the way; a label is a
step of its own kind, so that a location can always be told apart from the path through the value.
-/

namespace AnimationGrammar

/-- One step of the way to a fault. -/
inductive Step
  /-- The branch of a union was entered; the value stays the same. -/
  | label (name : String)
  | key (key : Atom)
  | index (position : Nat)
  deriving DecidableEq

/-- A condition that a value of the right kind and format may still fail. -/
inductive Refinement
  | numberIsZero
  | rangeIsPoint
  | identifierTooShort
  | itemsRepeat
  /-- A number in a list is too long for the items to be compared. -/
  | numberTooLong
  | objectIsEmpty
  | dimensionMissing
  | delayMinMissing
  | delaysUnordered
  /-- The key was given together with one of the keys that it excludes. -/
  | excluded (name : String) (others : List String)
  deriving DecidableEq

/-- The ways of a number to be out of bounds. -/
inductive BoundKind
  | atMost | below | atLeast | above
  deriving DecidableEq

/-- What is wrong with a value. -/
inductive Cause
  | missing
  | unknownKey
  | keyNotText
  | notModel (model : ModelName)
  | notDictionary
  | notList
  | notTuple
  | notText
  /-- Bytes that are no text in UTF-8. -/
  | notUnicode
  | notNumber
  | textEmpty
  | outOfBounds (kind : BoundKind) (limit : Double)
  | tooFewItems (least actual : Nat)
  | tooManyItems (most actual : Nat)
  | notChoice (choices : List String)
  | notFlag
  | badFormat (format : TextFormat)
  | wrongKind (kinds : List String)
  | fractional
  | noOperator
  | badTupleLength
  | notFilterObject
  | filterTypeMissing
  | filterTypeUnknown (shown : String) (types : List String)
  | notJson
  | refined (refinement : Refinement)
  deriving DecidableEq

/-- Something wrong at some place. -/
structure Fault where
  location : List Step
  cause : Cause
  deriving DecidableEq

/-- The fault seen from one step further out. -/
def Fault.under (step : Step) (fault : Fault) : Fault :=
  { fault with location := step :: fault.location }

/-- Choices joined for a message, the last one by a word. -/
def alternatives (choices : List String) : String :=
  match choices.reverse with
  | [] => ""
  | [only] => only
  | last :: before => ", ".intercalate before.reverse ++ " or " ++ last

/-- A name in a message, marked off from the text around it. -/
def marked (name : String) : String := "\x60" ++ name ++ "\x60"

/-- What is said about a number that is too long to be written. -/
def longNumberMessage : String :=
  "Exceeds the limit (4300 digits) for integer string conversion; " ++
    "use sys.set_int_max_str_digits() to increase the limit"

def Refinement.message : Refinement → String
  | numberIsZero =>
      "Number cannot be 0. If you want the value to be 0, simply leave the property undefined."
  | rangeIsPoint => "Offset range cannot be zero."
  | identifierTooShort => "Animation IDs should be reasonably unique."
  | itemsRepeat => "Items must be unique."
  | numberTooLong => longNumberMessage
  | objectIsEmpty => "Object must not be empty."
  | dimensionMissing =>
      "At least one offset dimension (\x60x\x60 or \x60y\x60) must be specified."
  | delayMinMissing => "\x60delayMin\x60 is required if \x60delayMax\x60 is defined."
  | delaysUnordered => "\x60delayMax\x60 must be greater than \x60delayMin\x60."
  | excluded name others =>
      marked name ++ " cannot be used at the same time as " ++
        alternatives (others.map marked) ++ "."

namespace BoundKind

def typeName : BoundKind → String
  | atMost => "less_than_equal"
  | below => "less_than"
  | atLeast => "greater_than_equal"
  | above => "greater_than"

def relation : BoundKind → String
  | atMost => "less than or equal to"
  | below => "less than"
  | atLeast => "greater than or equal to"
  | above => "greater than"

end BoundKind

/-- A number of items in a message. -/
def itemCount (n : Nat) : String := integerText n ++ (if n = 1 then " item" else " items")

namespace Cause

def typeName : Cause → String
  | missing => "missing"
  | unknownKey => "extra_forbidden"
  | keyNotText => "invalid_key"
  | notModel _ => "model_type"
  | notDictionary => "dict_type"
  | notList => "list_type"
  | notTuple => "tuple_type"
  | notText => "string_type"
  | notUnicode => "string_unicode"
  | notNumber => "float_type"
  | textEmpty => "string_too_short"
  | outOfBounds kind _ => kind.typeName
  | tooFewItems _ _ => "too_short"
  | tooManyItems _ _ => "too_long"
  | notChoice _ => "literal_error"
  | notFlag => "literal_error"
  | badFormat _ => "invalid_string"
  | wrongKind _ => "invalid_type"
  | fractional => "invalid_type"
  | noOperator => "invalid_union"
  | badTupleLength => "too_small"
  | notFilterObject => "model_attributes_type"
  | filterTypeMissing => "union_tag_not_found"
  | filterTypeUnknown _ _ => "union_tag_invalid"
  | notJson => "invalid-json-value"
  | refined _ => "value_error"

def message : Cause → String
  | missing => "Field required"
  | unknownKey => "Extra inputs are not permitted"
  | keyNotText => "Keys should be strings"
  | notModel model => "Input should be a valid dictionary or instance of " ++ model.label
  | notDictionary => "Input should be a valid dictionary"
  | notList => "Input should be a valid list"
  | notTuple => "Input should be a valid tuple"
  | notText => "Input should be a valid string"
  | notUnicode => "Input should be a valid string, unable to parse raw data as a unicode string"
  | notNumber => "Input should be a valid number"
  | textEmpty => "String should have at least 1 character"
  | outOfBounds kind limit =>
      "Input should be " ++ kind.relation ++ " " ++ boundLayout.doubleText limit
  | tooFewItems least actual =>
      "List should have at least " ++ itemCount least ++ " after validation, not " ++
        integerText actual
  | tooManyItems most actual =>
      "Tuple should have at most " ++ itemCount most ++ " after validation, not " ++
        integerText actual
  | notChoice choices =>
      "Input should be " ++ alternatives (choices.map fun choice => "'" ++ choice ++ "'")
  | notFlag => "Input should be True"
  | badFormat format => format.message
  | wrongKind kinds => "Expected " ++ " or ".intercalate kinds ++ "."
  | fractional => "Expected integer, received float."
  | noOperator =>
      "Predicate must be a roll option or an object with one of the operators " ++
        "eq, gt, gte, lt, lte, and, or, xor, not, nand, nor, if/then, iff."
  | badTupleLength => "Rule tuples take 3 to 5 items: [slug, file, scale, file?, scale?]."
  | notFilterObject => "Input should be a valid dictionary or object to extract fields from"
  | filterTypeMissing => "Unable to extract tag using discriminator 'type'"
  | filterTypeUnknown shown types =>
      "Input tag '" ++ shown ++ "' found using 'type' does not match any of the expected tags: " ++
        ", ".intercalate (types.map fun type => "'" ++ type ++ "'")
  | notJson => "input was not a valid JSON value"
  | refined refinement => "Value error, " ++ refinement.message

end Cause

end AnimationGrammar
