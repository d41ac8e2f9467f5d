import AnimationGrammar.Value.Canonical

/-!
Writing values as JSON text, over several lines.

Lines are indented by a number of spaces for each level.  Texts are written in ASCII, empty lists and
objects on one line.  Times and bytes have no JSON text, as values or as keys, and neither have integers of
too many digits.
-/

namespace AnimationGrammar.Json

/-- Layouts of doubles in JSON text: they keep their point. -/
def doubleLayout : NumberLayout := canonicalLayout

inductive WriteProblem
  /-- A time or bytes, which JSON does not know. -/
  | notJson
  | longNumber
  deriving DecidableEq

def atomText (a : Atom) : Except WriteProblem String :=
  match a with
  | .null => .ok "null"
  | .boolean value => .ok (if value then "true" else "false")
  | .number (.integer value) =>
      if a.isLongNumber then .error .longNumber else .ok (integerText value)
  | .number (.double value) => .ok (doubleLayout.doubleText value)
  | .text value => .ok (asciiQuoted value)
  | .time _ => .error .notJson
  | .bytes _ => .error .notJson

/-- The text of a key: an atom other than a text is written out. -/
def keyText (key : Atom) : Except WriteProblem String :=
  match key with
  | .text value => .ok (asciiQuoted value)
  | other => (atomText other).map asciiQuoted

def newline (indent level : Nat) : String :=
  String.ofList ('\n' :: List.replicate (indent * level) ' ')

/-- Parts between brackets, each on a line of its own. -/
def bracketed (opening closing : String) (indent level : Nat) (parts : List String) : String :=
  match parts with
  | [] => opening ++ closing
  | parts =>
      opening ++ newline indent (level + 1) ++
        ("," ++ newline indent (level + 1)).intercalate parts ++ newline indent level ++ closing

mutual

/-- The text of a value that stands at a level, or the first problem met on the way through it. -/
def write (indent level : Nat) : Value → Except WriteProblem String
  | .atom a => atomText a
  | .list items => (writeItems indent (level + 1) items).map (bracketed "[" "]" indent level)
  | .tuple items => (writeItems indent (level + 1) items).map (bracketed "[" "]" indent level)
  | .mapping entries =>
      (writeEntries indent (level + 1) entries).map (bracketed "\x7b" "\x7d" indent level)
  | .record _ fields =>
      (writeFields indent (level + 1) fields).map (bracketed "\x7b" "\x7d" indent level)

def writeItems (indent level : Nat) : List Value → Except WriteProblem (List String)
  | [] => .ok []
  | item :: rest => do
      let text ← write indent level item
      return text :: (← writeItems indent level rest)

def writeEntries (indent level : Nat) : List (Atom × Value) → Except WriteProblem (List String)
  | [] => .ok []
  | (key, value) :: rest => do
      let name ← keyText key
      let text ← write indent level value
      return (name ++ ": " ++ text) :: (← writeEntries indent level rest)

def writeFields (indent level : Nat) : List (String × Value) → Except WriteProblem (List String)
  | [] => .ok []
  | (name, value) :: rest => do
      let text ← write indent level value
      return (asciiQuoted name ++ ": " ++ text) :: (← writeFields indent level rest)

end

end AnimationGrammar.Json
