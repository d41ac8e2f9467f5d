import AnimationGrammar.Number.Decimal
import AnimationGrammar.Value.Basic

/-!
Reading JSON.

The reader keeps the order of keys; a key that comes twice keeps its first place and its last value.
Besides numbers it knows `NaN`, `Infinity` and `-Infinity`.  A failure says what was expected and how
much text remained, from which `ReadError.message` finds the line and the column.

Reading goes by fuel, and twice the length of the text is always enough: each step either reads a
character or leads to a step that does.
-/

namespace AnimationGrammar.Json

/-- What is wrong with a text that is no JSON. -/
inductive Problem
  | valueExpected
  | nameExpected
  | colonExpected
  | commaExpected
  | stringUnterminated
  | controlCharacter
  | badEscape
  | badUnicodeEscape
  | extraData
  | byteOrderMark
  | tooManyDigits (count : Nat)
  deriving DecidableEq

/-- A problem and the number of characters from it to the end. -/
structure Failure where
  problem : Problem
  remaining : Nat
  deriving DecidableEq

/-- Reading a part of the text: the value, and the text after it. -/
abbrev Reading (α : Type) := Except Failure (α × List Char)

def failAt {α : Type} (problem : Problem) (rest : List Char) : Except Failure α :=
  .error ⟨problem, rest.length⟩

def isSpace (c : Char) : Bool := c == ' ' || c == '\t' || c == '\n' || c == '\r'

def skipSpace (text : List Char) : List Char := text.dropWhile isSpace

def hexValue? (c : Char) : Option Nat :=
  if '0' ≤ c && c ≤ '9' then some (c.toNat - 48)
  else if 'a' ≤ c && c ≤ 'f' then some (c.toNat - 87)
  else if 'A' ≤ c && c ≤ 'F' then some (c.toNat - 55)
  else none

def hexUnit? (a b c d : Char) : Option Nat :=
  match hexValue? a, hexValue? b, hexValue? c, hexValue? d with
  | some a, some b, some c, some d => some (((a * 16 + b) * 16 + c) * 16 + d)
  | _, _, _, _ => none

def isHighSurrogate (unit : Nat) : Bool := 0xD800 ≤ unit && unit < 0xDC00

def isLowSurrogate (unit : Nat) : Bool := 0xDC00 ≤ unit && unit < 0xE000

/-- The character of a UTF-16 unit.  Half of a pair is no character, and here every one of them is read as
the replacement character: keys and texts that differ only in such halves are read as the same. -/
def unitChar (unit : Nat) : Char :=
  if isHighSurrogate unit || isLowSurrogate unit then '\uFFFD' else Char.ofNat unit

/-- The character of a pair of UTF-16 units. -/
def pairChar (high low : Nat) : Char :=
  Char.ofNat (0x10000 + (high - 0xD800) * 0x400 + (low - 0xDC00))

def escapedChar? : Char → Option Char
  | '"' => some '"'
  | '\\' => some '\\'
  | '/' => some '/'
  | 'b' => some '\x08'
  | 'f' => some '\x0c'
  | 'n' => some '\n'
  | 'r' => some '\r'
  | 't' => some '\t'
  | _ => none

/-- The rest of a string, and the text after its closing quote.  `start` is the text from its opening
quote on, where a string that does not end is reported. -/
def readString (start : Nat) : List Char → Reading (List Char)
  | [] => .error ⟨.stringUnterminated, start⟩
  | '"' :: rest => .ok ([], rest)
  | '\\' :: [] => .error ⟨.stringUnterminated, start⟩
  | '\\' :: 'u' :: a :: b :: c :: d :: rest =>
      match hexUnit? a b c d with
      | none => failAt .badUnicodeEscape ('u' :: a :: b :: c :: d :: rest)
      | some unit =>
          if rest.isEmpty then failAt .badUnicodeEscape ('u' :: a :: b :: c :: d :: rest)
          else if isHighSurrogate unit then
            match rest with
            | '\\' :: 'u' :: e :: f :: g :: h :: next :: later =>
                match hexUnit? e f g h with
                | none => failAt .badUnicodeEscape ('u' :: e :: f :: g :: h :: next :: later)
                | some second =>
                    if isLowSurrogate second then
                      (readString start (next :: later)).map fun (content, rest) =>
                        (pairChar unit second :: content, rest)
                    else
                      (readString start ('\\' :: 'u' :: e :: f :: g :: h :: next :: later)).map
                        fun (content, rest) => (unitChar unit :: content, rest)
            | other =>
                (readString start other).map fun (content, rest) => (unitChar unit :: content, rest)
          else (readString start rest).map fun (content, rest) => (unitChar unit :: content, rest)
  | '\\' :: 'u' :: rest => failAt .badUnicodeEscape ('u' :: rest)
  | '\\' :: letter :: rest =>
      match escapedChar? letter with
      | some c => (readString start rest).map fun (content, rest) => (c :: content, rest)
      | none => failAt .badEscape ('\\' :: letter :: rest)
  | c :: rest =>
      if c.toNat < 32 then failAt .controlCharacter (c :: rest)
      else (readString start rest).map fun (content, rest) => (c :: content, rest)
termination_by text => text.length

def takeDigits (text : List Char) : List Char × List Char := text.span Char.isDigit

def digitsValue (digits : List Char) : Nat :=
  digits.foldl (fun value digit => value * 10 + (digit.toNat - 48)) 0

/-- The digits before the point: a zero, or digits that start with no zero. -/
def wholeDigits? : List Char → Option (List Char × List Char)
  | '0' :: rest => some (['0'], rest)
  | c :: rest => if c.isDigit then some (takeDigits (c :: rest)) else none
  | [] => none

/-- The digits after the point, if there is a point with digits after it. -/
def fractionDigits? : List Char → Option (List Char × List Char)
  | '.' :: rest =>
      match takeDigits rest with
      | ([], _) => none
      | found => some found
  | _ => none

/-- An exponent, if there is one with digits. -/
def exponent? : List Char → Option (Int × List Char)
  | mark :: rest =>
      if mark = 'e' || mark = 'E' then
        let (negative, body) := match rest with
          | '-' :: body => (true, body)
          | '+' :: body => (false, body)
          | body => (false, body)
        match takeDigits body with
        | ([], _) => none
        | (digits, later) => some (signed negative (digitsValue digits), later)
      else none
  | [] => none

/-- The largest number of digits that an integer may have. -/
def digitLimit : Nat := 4300

/-- A number without its sign.  A point or an exponent makes it a double. -/
def readUnsigned (negative : Bool) (text : List Char) : Option (Except Nat Numeral × List Char) :=
  (wholeDigits? text).map fun (whole, rest) =>
    let fraction := fractionDigits? rest
    let (fractionPart, afterFraction) := fraction.getD ([], rest)
    let exponent := exponent? afterFraction
    let (power, afterExponent) := exponent.getD (0, afterFraction)
    if fraction.isNone && exponent.isNone then
      if digitLimit < whole.length then (.error whole.length, rest)
      else (.ok (.integer (signed negative (digitsValue whole))), rest)
    else
      let decimal : Decimal :=
        ⟨digitsValue (whole ++ fractionPart), power - fractionPart.length⟩
      (.ok (.double (Double.ofDecimal negative decimal)), afterExponent)

/-- A number with its sign, if the text starts with one. -/
def readNumber? : List Char → Option (Except Nat Numeral × List Char)
  | '-' :: rest => readUnsigned true rest
  | text => readUnsigned false text

def words : List (List Char × Value) :=
  [("null".toList, .null), ("true".toList, .boolean true), ("false".toList, .boolean false),
   ("NaN".toList, .double .notANumber), ("Infinity".toList, .double (.infinite false)),
   ("-Infinity".toList, .double (.infinite true))]

/-- The text after a word, if the text starts with it. -/
def dropWord? : List Char → List Char → Option (List Char)
  | [], text => some text
  | w :: word, c :: text => if w = c then dropWord? word text else none
  | _ :: _, [] => none

def readWord? (text : List Char) : Option (Value × List Char) :=
  words.findSome? fun (word, value) => (dropWord? word text).map fun rest => (value, rest)

/-- The entries with one more.  A key that is there already keeps its place. -/
def putEntry (key : Atom) (value : Value) : List (Atom × Value) → List (Atom × Value)
  | [] => [(key, value)]
  | (other, old) :: rest =>
      if other.isSameKey key then (other, value) :: rest else (other, old) :: putEntry key value rest

mutual

def readValue : Nat → List Char → Reading Value
  | 0, text => failAt .valueExpected text
  | _ + 1, [] => failAt .valueExpected []
  | _ + 1, '"' :: rest =>
      (readString (rest.length + 1) rest).map fun (content, rest) =>
        (.text (String.ofList content), rest)
  | fuel + 1, '[' :: rest =>
      match skipSpace rest with
      | ']' :: rest => .ok (.list [], rest)
      | rest => (readItems fuel rest).map fun (items, rest) => (.list items, rest)
  | fuel + 1, '\x7b' :: rest =>
      match skipSpace rest with
      | '\x7d' :: rest => .ok (.mapping [], rest)
      | rest => (readMembers fuel [] rest).map fun (entries, rest) => (.mapping entries, rest)
  | _ + 1, text =>
      match readWord? text with
      | some found => .ok found
      | none =>
          match readNumber? text with
          | some (.ok n, rest) => .ok (.number n, rest)
          | some (.error count, _) => failAt (.tooManyDigits count) text
          | none => failAt .valueExpected text

def readItems : Nat → List Char → Reading (List Value)
  | 0, text => failAt .valueExpected text
  | fuel + 1, text =>
      match readValue fuel text with
      | .error failure => .error failure
      | .ok (item, rest) =>
          match skipSpace rest with
          | ']' :: rest => .ok ([item], rest)
          | ',' :: rest =>
              (readItems fuel (skipSpace rest)).map fun (items, rest) => (item :: items, rest)
          | rest => failAt .commaExpected rest

/-- The members of an object, up to its end, after those read before. -/
def readMembers : Nat → List (Atom × Value) → List Char → Reading (List (Atom × Value))
  | 0, _, text => failAt .valueExpected text
  | fuel + 1, before, '"' :: rest =>
      match readString (rest.length + 1) rest with
      | .error failure => .error failure
      | .ok (name, rest) =>
          match skipSpace rest with
          | ':' :: rest =>
              match readValue fuel (skipSpace rest) with
              | .error failure => .error failure
              | .ok (value, rest) =>
                  let entries := putEntry (.text (String.ofList name)) value before
                  match skipSpace rest with
                  | '\x7d' :: rest => .ok (entries, rest)
                  | ',' :: rest => readMembers fuel entries (skipSpace rest)
                  | rest => failAt .commaExpected rest
          | rest => failAt .colonExpected rest
  | _ + 1, _, text => failAt .nameExpected text

end

def readChars (text : List Char) : Except Failure Value :=
  match text with
  | '\uFEFF' :: _ => failAt .byteOrderMark text
  | _ =>
      match readValue (2 * text.length + 2) (skipSpace text) with
      | .error failure => .error failure
      | .ok (value, rest) =>
          match skipSpace rest with
          | [] => .ok value
          | rest => failAt .extraData rest

structure ReadError where
  text : List Char
  failure : Failure

namespace ReadError

/-- How many characters stand before the problem. -/
def position (error : ReadError) : Nat := error.text.length - error.failure.remaining

/-- The line and the column of the problem, counted from one. -/
def lineAndColumn (error : ReadError) : Nat × Nat :=
  let before := error.text.take error.position
  (before.count '\n' + 1, (before.reverse.takeWhile (· ≠ '\n')).length + 1)

def message (error : ReadError) : String :=
  match error.failure.problem with
  | .tooManyDigits count =>
      "Exceeds the limit (4300 digits) for integer string conversion: value has " ++
        toString count ++ " digits; use sys.set_int_max_str_digits() to increase the limit"
  | .valueExpected => placed "Expecting value"
  | .nameExpected => placed "Expecting property name enclosed in double quotes"
  | .colonExpected => placed "Expecting ':' delimiter"
  | .commaExpected => placed "Expecting ',' delimiter"
  | .stringUnterminated => placed "Unterminated string starting at"
  | .controlCharacter => placed "Invalid control character at"
  | .badEscape => placed "Invalid \\escape"
  | .badUnicodeEscape => placed "Invalid \\uXXXX escape"
  | .extraData => placed "Extra data"
  | .byteOrderMark => placed "Unexpected UTF-8 BOM (decode using utf-8-sig)"
where
  placed (what : String) : String :=
    what ++ ": line " ++ toString error.lineAndColumn.1 ++ " column " ++
      toString error.lineAndColumn.2 ++ " (char " ++ toString error.position ++ ")"

end ReadError

def read (text : String) : Except ReadError Value :=
  match readChars text.toList with
  | .ok value => .ok value
  | .error failure => .error ⟨text.toList, failure⟩

end AnimationGrammar.Json
