import AnimationGrammar.Json.Reader

/-!
Where a settings file stops being JSON.

The settings file is diagnosed by a reader of its own, which says what it was reading when it met the
problem and counts columns in bytes.  It reads by fuel: twice the length of the text is enough.
-/

namespace AnimationGrammar.Diagnosis

/-- What is wrong with a text. -/
inductive Finding
  | endInList
  | endInObject
  | endInString
  | endInValue
  | colonExpected
  | listCommaExpected
  | objectCommaExpected
  | wordExpected
  | valueExpected
  | invalidEscape
  | invalidNumber
  | controlCharacter
  | nameExpected
  | loneSurrogate
  | escapeUnfinished
  | numberOutOfRange
  | trailingComma
  | trailingCharacters
  deriving DecidableEq

def Finding.message : Finding → String
  | endInList => "EOF while parsing a list"
  | endInObject => "EOF while parsing an object"
  | endInString => "EOF while parsing a string"
  | endInValue => "EOF while parsing a value"
  | colonExpected => "expected \x60:\x60"
  | listCommaExpected => "expected \x60,\x60 or \x60]\x60"
  | objectCommaExpected => "expected \x60,\x60 or \x60\x7d\x60"
  | wordExpected => "expected ident"
  | valueExpected => "expected value"
  | invalidEscape => "invalid escape"
  | invalidNumber => "invalid number"
  | controlCharacter => "control character (\\u0000-\\u001F) found while parsing a string"
  | nameExpected => "key must be a string"
  | loneSurrogate => "lone leading surrogate in hex escape"
  | escapeUnfinished => "unexpected end of hex escape"
  | numberOutOfRange => "number out of range"
  | trailingComma => "trailing comma"
  | trailingCharacters => "trailing characters"

/-- The text after what was read, or the finding and the text from it on. -/
abbrev Scan := Except (Finding × List Char) (List Char)

open Json (skipSpace hexValue? isHighSurrogate isLowSurrogate takeDigits)

/-- A word of which the first letter has been read. -/
def scanWord : List Char → List Char → Scan
  | [], rest => .ok rest
  | _ :: _, [] => .error (.endInValue, [])
  | w :: word, c :: rest => if w = c then scanWord word rest else .error (.wordExpected, c :: rest)

/-- At least one digit, and all that follow it. -/
def scanDigits : List Char → Scan
  | [] => .error (.endInValue, [])
  | c :: rest => if c.isDigit then .ok (takeDigits rest).2 else .error (.invalidNumber, c :: rest)

/-- An exponent, if there is one. -/
def scanExponent : List Char → Scan
  | c :: rest =>
      if c = 'e' || c = 'E' then
        match rest with
        | '+' :: body => scanDigits body
        | '-' :: body => scanDigits body
        | body => scanDigits body
      else .ok (c :: rest)
  | [] => .ok []

/-- A fraction and an exponent, if there are any. -/
def scanFraction : List Char → Scan
  | '.' :: rest =>
      match scanDigits rest with
      | .error found => .error found
      | .ok rest => scanExponent rest
  | rest => scanExponent rest

/-- The digits before the point, of which there cannot be too many. -/
def scanWhole (text : List Char) : Scan :=
  let (digits, rest) := takeDigits text
  if Json.digitLimit < digits.length then .error (.numberOutOfRange, text.drop (Json.digitLimit + 1))
  else scanFraction rest

def scanUnsigned : List Char → Scan
  | [] => .error (.endInValue, [])
  | '0' :: c :: rest =>
      if c.isDigit then .error (.invalidNumber, c :: rest) else scanFraction (c :: rest)
  | 'I' :: rest => scanWord "nfinity".toList rest
  | c :: rest => if c.isDigit then scanWhole (c :: rest) else .error (.invalidNumber, c :: rest)

/-- How many bytes a text takes. -/
def byteLength (text : List Char) : Nat :=
  text.foldl (fun length c => length + c.utf8Size) 0

/-- Hexadecimal digits and the number that they stand for. -/
def scanHexDigits : Nat → Nat → List Char → Except (Finding × List Char) (Nat × List Char)
  | 0, value, rest => .ok (value, rest)
  | _ + 1, _, [] => .error (.endInString, [])
  | count + 1, value, c :: rest =>
      match hexValue? c with
      | some digit => scanHexDigits count (value * 16 + digit) rest
      | none => .error (.invalidEscape, c :: rest)

/-- The four hexadecimal digits of an escape, for which there have to be four bytes. -/
def scanUnit (text : List Char) : Except (Finding × List Char) (Nat × List Char) :=
  if byteLength text < 4 then .error (.endInString, []) else scanHexDigits 4 0 text

def scanSecondHalf : List Char → Scan
  | '\\' :: 'u' :: digits =>
      match scanUnit digits with
      | .error found => .error found
      | .ok (unit, rest) =>
          if isLowSurrogate unit then .ok rest else .error (.loneSurrogate, digits.drop 3)
  | [] => .error (.endInString, [])
  | ['\\'] => .error (.endInString, [])
  | '\\' :: rest => .error (.escapeUnfinished, rest)
  | rest => .error (.escapeUnfinished, rest)

/-- An escape, from the letter after its backslash on. -/
def scanEscape : List Char → Scan
  | [] => .error (.endInString, [])
  | 'u' :: digits =>
      match scanUnit digits with
      | .error found => .error found
      | .ok (unit, rest) =>
          if isLowSurrogate unit then .error (.loneSurrogate, digits.drop 3)
          else if isHighSurrogate unit then scanSecondHalf rest
          else .ok rest
  | letter :: rest =>
      match Json.escapedChar? letter with
      | some _ => .ok rest
      | none => .error (.invalidEscape, letter :: rest)

def scanString : Nat → List Char → Scan
  | 0, text => .error (.endInString, text)
  | _ + 1, [] => .error (.endInString, [])
  | _ + 1, '"' :: rest => .ok rest
  | fuel + 1, '\\' :: rest =>
      match scanEscape rest with
      | .error found => .error found
      | .ok rest => scanString fuel rest
  | fuel + 1, c :: rest =>
      if c.toNat < 32 then .error (.controlCharacter, c :: rest) else scanString fuel rest

mutual

def scanValue : Nat → List Char → Scan
  | 0, text => .error (.valueExpected, text)
  | _ + 1, [] => .error (.endInValue, [])
  | _ + 1, '"' :: rest => scanString (rest.length + 1) rest
  | _ + 1, 't' :: rest => scanWord "rue".toList rest
  | _ + 1, 'f' :: rest => scanWord "alse".toList rest
  | _ + 1, 'n' :: rest => scanWord "ull".toList rest
  | _ + 1, 'N' :: rest => scanWord "aN".toList rest
  | _ + 1, 'I' :: rest => scanWord "nfinity".toList rest
  | _ + 1, '-' :: rest => scanUnsigned rest
  | fuel + 1, '[' :: rest =>
      match skipSpace rest with
      | [] => .error (.endInList, [])
      | ']' :: rest => .ok rest
      | rest => scanItems fuel rest
  | fuel + 1, '\x7b' :: rest =>
      match skipSpace rest with
      | [] => .error (.endInObject, [])
      | '\x7d' :: rest => .ok rest
      | rest => scanMembers fuel rest
  | _ + 1, c :: rest =>
      if c.isDigit then scanUnsigned (c :: rest) else .error (.valueExpected, c :: rest)

def scanItems : Nat → List Char → Scan
  | 0, text => .error (.valueExpected, text)
  | fuel + 1, text =>
      match scanValue fuel text with
      | .error found => .error found
      | .ok rest =>
          match skipSpace rest with
          | [] => .error (.endInList, [])
          | ']' :: rest => .ok rest
          | ',' :: rest =>
              match skipSpace rest with
              | [] => .error (.endInValue, [])
              | ']' :: rest => .error (.trailingComma, ']' :: rest)
              | rest => scanItems fuel rest
          | rest => .error (.listCommaExpected, rest)

def scanMembers : Nat → List Char → Scan
  | 0, text => .error (.valueExpected, text)
  | fuel + 1, '"' :: rest =>
      match scanString (rest.length + 1) rest with
      | .error found => .error found
      | .ok rest =>
          match skipSpace rest with
          | [] => .error (.endInObject, [])
          | ':' :: rest =>
              match scanValue fuel (skipSpace rest) with
              | .error found => .error found
              | .ok rest =>
                  match skipSpace rest with
                  | [] => .error (.endInObject, [])
                  | '\x7d' :: rest => .ok rest
                  | ',' :: rest =>
                      match skipSpace rest with
                      | [] => .error (.endInValue, [])
                      | '\x7d' :: rest => .error (.trailingComma, '\x7d' :: rest)
                      | rest => scanMembers fuel rest
                  | rest => .error (.objectCommaExpected, rest)
          | rest => .error (.colonExpected, rest)
  | _ + 1, text => .error (.nameExpected, text)

end

def scanText (text : List Char) : Scan :=
  match scanValue (2 * text.length + 2) (skipSpace text) with
  | .error found => .error found
  | .ok rest =>
      match skipSpace rest with
      | [] => .ok []
      | rest => .error (.trailingCharacters, rest)

/-- The line and the column at which the rest of a text begins.  At the end of the text the column is
that of the last character. -/
def lineAndColumn (text rest : List Char) : Nat × Nat :=
  let before := text.take (text.length - rest.length)
  let lastLine := (before.reverse.takeWhile (· ≠ '\n')).reverse
  let line := before.count '\n' + 1
  match rest with
  | [] => (line, byteLength lastLine)
  | '\n' :: _ => (line + 1, 0)
  | _ => (line, byteLength lastLine + 1)

/-- What is said about a text, if it is not JSON. -/
def describe? (text : String) : Option String :=
  match scanText text.toList with
  | .ok _ => none
  | .error (finding, rest) =>
      let (line, column) := lineAndColumn text.toList rest
      some ("Invalid JSON: " ++ finding.message ++ " at line " ++ toString line ++ " column " ++
        toString column)

end AnimationGrammar.Diagnosis
