import AnimationGrammar.Settings.Basic
import AnimationGrammar.Settings.Diagnosis
import AnimationGrammar.Text.CharClass
import AnimationGrammar.Validation.Fault

/-!
Reading settings.

Settings that are left out have their defaults, and keys that are no settings are ignored.  The indent
is read leniently: a whole number may be written as a double, a boolean or a text.
-/

namespace AnimationGrammar

/-- What is wrong with a setting. -/
inductive SettingsCause
  | notJson (message : String)
  | notObject
  | unknownLevel
  | notText
  | notInteger
  | fractional
  | notFinite
  | tooLarge
  | notIntegerText
  | negative
  deriving DecidableEq

/-- Something wrong with the settings, and under which key. -/
structure SettingsFault where
  location : List String
  cause : SettingsCause
  deriving DecidableEq

namespace SettingsCause

def typeName : SettingsCause → String
  | notJson _ => "json_invalid"
  | notObject => "model_type"
  | unknownLevel => "literal_error"
  | notText => "string_type"
  | notInteger => "int_type"
  | fractional => "int_from_float"
  | notFinite => "finite_number"
  | tooLarge => "int_parsing_size"
  | notIntegerText => "int_parsing"
  | negative => "greater_than_equal"

def message : SettingsCause → String
  | notJson message => message
  | notObject => "Input should be an object"
  | unknownLevel =>
      "Input should be " ++
        alternatives (LogLevel.all.map fun level => "'" ++ level.label ++ "'")
  | notText => "Input should be a valid string"
  | notInteger => "Input should be a valid integer"
  | fractional =>
      "Input should be a valid integer, got a number with a fractional part"
  | notFinite => "Input should be a finite number"
  | tooLarge => "Unable to parse input string as an integer, exceeded maximum size"
  | notIntegerText =>
      "Input should be a valid integer, unable to parse string as an integer"
  | negative => "Input should be greater than or equal to 0"

end SettingsCause

/-- A text as the integers of JSON are written, with no zero before other digits.  One with too many
digits is told apart from one that is no integer. -/
def strictInteger (text : List Char) : Except SettingsCause Int :=
  let (negative, unsigned) := match text with
    | '-' :: rest => (true, rest)
    | rest => (false, rest)
  let (digits, rest) := Json.takeDigits unsigned
  if digits.isEmpty || (digits.head? == some '0' && digits ≠ ['0']) then .error .notIntegerText
  else if Json.digitLimit < digits.length then .error .tooLarge
  else if !rest.isEmpty then .error .notIntegerText
  else .ok (signed negative (Json.digitsValue digits))

/-- A text without the zeros and underscores before its first other digit, its sign or its point; one
zero stays before a point, and where there is nothing else. -/
def dropLeadingZeros? (text : List Char) : Option (List Char) :=
  match text with
  | '0' :: rest => go '0' rest
  | c :: _ => if c.isDigit || c = '-' then some text else none
  | [] => none
where
  go (previous : Char) : List Char → Option (List Char)
    | [] => some [previous]
    | c :: rest =>
        if c = '0' || c = '_' then go c rest
        else if c.isDigit || c = '-' then some (c :: rest)
        else if c = '.' then some (previous :: c :: rest)
        else none

/-- A text without the zeros after its point, if nothing else is there. -/
def dropFractionZeros (text : List Char) : List Char :=
  let fraction := (text.dropWhile (· ≠ '.')).drop 1
  if !fraction.isEmpty && fraction.all (· == '0') then text.takeWhile (· ≠ '.') else text

/-- Whether two underscores follow one another. -/
def hasDoubleUnderscore : List Char → Bool
  | '_' :: '_' :: _ => true
  | _ :: rest => hasDoubleUnderscore rest
  | [] => false

/-- A text without its underscores, if they are single ones inside of it. -/
def dropUnderscores (text : List Char) : List Char :=
  if text.head? == some '_' || text.getLast? == some '_' || hasDoubleUnderscore text then text
  else text.filter (· ≠ '_')

/-- A text that is close to an integer as one is written. -/
def tidyInteger? (text : List Char) : Option (List Char) :=
  let unsigned := match (trim text) with
    | '+' :: rest => if rest.head? == some '-' then none else some rest
    | trimmed => some trimmed
  (unsigned.bind dropLeadingZeros?).map fun rest => dropUnderscores (dropFractionZeros rest)
where
  trim (text : List Char) : List Char :=
    ((text.dropWhile isBlankChar).reverse.dropWhile isBlankChar).reverse

/-- The integer that a text is read as: blanks around it, a plus sign, leading zeros, grouped digits and
a fraction of zeros are allowed. -/
def lenientInteger (text : String) : Except SettingsCause Int :=
  match strictInteger text.toList with
  | .ok n => .ok n
  | .error .tooLarge => .error .tooLarge
  | .error _ =>
      match (tidyInteger? text.toList).map strictInteger with
      | some (.ok n) => .ok n
      | _ => .error .notIntegerText

def readInteger : Value → Except SettingsCause Int
  | .boolean value => .ok (if value then 1 else 0)
  | .integer value => .ok value
  | .double value =>
      match value with
      | .finite _ _ =>
          match value.toInt? with
          | none => .error .fractional
          | some n => if -wordLimit < n && n < wordLimit then .ok n else .error .tooLarge
      | _ => .error .notFinite
  | .text text => lenientInteger text
  | _ => .error .notInteger

def readLevel : Value → Except SettingsCause LogLevel
  | .text label =>
      match LogLevel.ofLabel? label with
      | some level => .ok level
      | none => .error .unknownLevel
  | _ => .error .unknownLevel

def readDirectory : Value → Except SettingsCause String
  | .text directory => .ok directory
  | _ => .error .notText

def readIndent (value : Value) : Except SettingsCause Nat :=
  match readInteger value with
  | .error cause => .error cause
  | .ok n => if n < 0 then .error .negative else .ok n.toNat

/-- A setting under its key, or its default. -/
def readSetting {α : Type} (name : String) (default : α) (read : Value → Except SettingsCause α)
    (given : Value) : Except SettingsFault α :=
  match given.get? name with
  | none => .ok default
  | some value =>
      match read value with
      | .ok setting => .ok setting
      | .error cause => .error ⟨[name], cause⟩

def faultOf {α : Type} : Except SettingsFault α → List SettingsFault
  | .ok _ => []
  | .error fault => [fault]

namespace Settings

/-- The settings that an object gives. -/
def ofValue (given : Value) : Except (List SettingsFault) Settings :=
  match given with
  | .mapping _ =>
      let defaults : Settings := {}
      let level := readSetting "log_level" defaults.logLevel readLevel given
      let directory := readSetting "schema_dir" defaults.schemaDirectory readDirectory given
      let indent := readSetting "json_indent" defaults.jsonIndent readIndent given
      match level, directory, indent with
      | .ok logLevel, .ok schemaDirectory, .ok jsonIndent =>
          .ok { logLevel, schemaDirectory, jsonIndent }
      | _, _, _ => .error (faultOf level ++ faultOf directory ++ faultOf indent)
  | _ => .error [⟨[], .notObject⟩]

/-- The settings that a file gives. -/
def ofText (text : String) : Except (List SettingsFault) Settings :=
  match Diagnosis.describe? text, Json.read text with
  | some problem, _ => .error [⟨[], .notJson problem⟩]
  | none, .ok given => ofValue given
  | none, .error error => .error [⟨[], .notJson error.message⟩]

end Settings

end AnimationGrammar
