import AnimationGrammar.Text.Pattern

/-!
The formats that texts of a configuration have to follow: slugs, roll options, colours, file paths,
database entries and document identifiers, each with its pattern and the message for a text that
does not follow it.
-/

namespace AnimationGrammar

/-- A format of a text. -/
inductive TextFormat
  | slug
  | rollOption
  | hexColour
  | filePath
  | databaseEntry
  /-- A database entry or a file path. -/
  | asset
  | documentIdentifier
  deriving DecidableEq

namespace TextFormat

open Pattern

def char (c : Char) : Pattern := one ⟨[.char c], false⟩

def wordChar : Pattern := one ⟨[.word], false⟩

def slugChar : Pattern := one ⟨[.range 'a' 'z', .range '0' '9'], false⟩

/-- Non-empty runs of small letters and digits, joined by single hyphens. -/
def slugPattern : Pattern := seq (plus slugChar) (star (seq (char '-') (plus slugChar)))

/-- Slugs joined by colons; a signed number may come last. -/
def rollOptionPattern : Pattern :=
  seq slugPattern
    (seq (star (seq (char ':') slugPattern))
      (optional (seq (char ':') (seq (optional (char '-')) (plus (one ⟨[.digit], false⟩))))))

def hexDigit : Pattern := one ⟨[.range '0' '9', .range 'a' 'f', .range 'A' 'F'], false⟩

/-- A hash sign and three or six hexadecimal digits. -/
def hexColourPattern : Pattern :=
  seq (char '#') (seq (times hexDigit 3) (optional (times hexDigit 3)))

/-- The characters that are safe in a file name on every platform. -/
def fileNameChar : Pattern :=
  one ⟨['"', ':', '<', '>', '?', '\\', '|', '/'].map .char, true⟩

/-- At least two components, and an extension of three or four word characters. -/
def filePathPattern : Pattern :=
  seq wordChar
    (seq (plus fileNameChar)
      (seq (plus (seq (char '/') (plus fileNameChar)))
        (seq (char '.')
          (seq wordChar (seq wordChar (seq wordChar (optional wordChar)))))))

def entryChar : Pattern := one ⟨[.word, .char '-'], false⟩

/-- Two or more alternatives between braces, separated by commas. -/
def alternativesPattern : Pattern :=
  seq (char '{')
    (seq (plus wordChar)
      (seq (plus (seq (char ',') (plus (one ⟨['{', '}', ','].map .char, true⟩))))
        (char '}')))

/-- A head and dotted segments, each of them a plain word or a group of alternatives. -/
def databaseEntryPattern : Pattern :=
  seq wordChar
    (seq (plus entryChar)
      (plus (seq (char '.') (alt (plus entryChar) alternativesPattern))))

/-- Runs of letters and digits joined by dots; hyphens are allowed after the first dot. -/
def documentIdentifierPattern : Pattern :=
  let alphanumeric : List CharItem := [.range 'a' 'z', .range 'A' 'Z', .range '0' '9']
  seq (plus (one ⟨alphanumeric, false⟩))
    (plus (seq (char '.') (plus (one ⟨alphanumeric ++ [.char '-'], false⟩))))

def pattern : TextFormat → Pattern
  | slug => anchored slugPattern
  | rollOption => anchored rollOptionPattern
  | hexColour => anchored hexColourPattern
  | filePath => anchored filePathPattern
  | databaseEntry => anchored databaseEntryPattern
  | asset => alt (anchored databaseEntryPattern) (anchored filePathPattern)
  | documentIdentifier => anchored documentIdentifierPattern

def accepts (format : TextFormat) (text : String) : Bool :=
  format.pattern.matchesWhole text.toList

def message : TextFormat → String
  | slug => "String must be a valid slug."
  | rollOption => "String must be a valid roll option."
  | hexColour => "String must be a valid hexadecimal colour-code."
  | filePath => "String must be a valid filepath. The following characters are unsafe for " ++
      "cross-platform filesystems: \":<>?\\|"
  | databaseEntry => "String must be a valid Sequencer database entry."
  | asset => "String must be a valid Sequencer database entry or filepath."
  | documentIdentifier => "Must be a valid UUID."

end TextFormat

end AnimationGrammar
