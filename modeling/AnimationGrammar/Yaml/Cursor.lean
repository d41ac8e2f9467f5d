/-!
A place in a YAML text, and the classes of characters that matter there.

A cursor holds what is left to read together with the line and the column that have been reached.  A
line ends at a line feed, at a carriage return with or without a line feed, and at three characters
of Unicode.
-/

namespace AnimationGrammar.Yaml

def isBreak (c : Char) : Bool :=
  c == '\n' || c == '\r' || c == '\u0085' || c == '\u2028' || c == '\u2029'

def isBlank (c : Char) : Bool := c == ' ' || c == '\t'

def isGap (c : Char) : Bool := isBlank c || isBreak c

/-- Whether a word ends before the next character, or at the end of the text. -/
def endsWord (next : Option Char) : Bool := next.all isGap

/-- Whether nothing or a space or the end of the line follows; a tab does not count. -/
def endsPlainly (next : Option Char) : Bool := next.all fun c => c == ' ' || isBreak c

def endsLine (next : Option Char) : Bool := next.all isBreak

/-- Whether a character may occur in a document. -/
def isPrintable (c : Char) : Bool :=
  c == '\t' || c == '\n' || c == '\r' || c == '\u0085' ||
    (' ' ≤ c && c ≤ '~') || ('\u00a0' ≤ c && c ≤ '\ufffd') || '\ufffd'.toNat + 2 < c.toNat

/-- Whether a character may occur in the name of an anchor or a directive. -/
def isNameChar (c : Char) : Bool := c.isAlphanum || c == '-' || c == '_'

/-- A place in a text. -/
structure Cursor where
  rest : List Char
  /-- How many characters have been read, and how many lines have ended. -/
  index : Nat := 0
  line : Nat := 0
  /-- How far the place is from the start of its line. -/
  column : Nat := 0

namespace Cursor

/-- The character some places ahead. -/
def peek (cursor : Cursor) (ahead : Nat) : Option Char := cursor.rest[ahead]?

/-- The place after one more character.  A byte order mark takes no room in its line. -/
def step (cursor : Cursor) : Cursor :=
  match cursor.rest with
  | [] => cursor
  | c :: rest =>
      let next := { cursor with rest, index := cursor.index + 1 }
      if c = '\r' && rest.head? == some '\n' then { next with column := cursor.column + 1 }
      else if isBreak c then { next with line := cursor.line + 1, column := 0 }
      else if c = '\uFEFF' then next
      else { next with column := cursor.column + 1 }

def advance (cursor : Cursor) : Nat → Cursor
  | 0 => cursor
  | count + 1 => cursor.step.advance count

/-- The characters up to the first that is of no given class, and the place after them. -/
def takeWhile (belongs : Char → Bool) (cursor : Cursor) : List Char × Cursor :=
  let run := cursor.rest.takeWhile belongs
  (run, cursor.advance run.length)

def skipWhile (belongs : Char → Bool) (cursor : Cursor) : Cursor := (cursor.takeWhile belongs).2

def skipSpaces (cursor : Cursor) : Cursor := cursor.skipWhile (· == ' ')

/-- The place at the end of a comment, if there is one. -/
def skipComment (cursor : Cursor) : Cursor :=
  if cursor.peek 0 == some '#' then cursor.skipWhile fun c => !isBreak c else cursor

/-- The end of the line, if it is here: what it counts as in a scalar, and the place after it. -/
def lineBreak? (cursor : Cursor) : Option (Char × Cursor) :=
  match cursor.rest with
  | '\r' :: '\n' :: _ => some ('\n', cursor.advance 2)
  | c :: _ =>
      if c = '\u2028' || c = '\u2029' then some (c, cursor.step)
      else if isBreak c then some ('\n', cursor.step)
      else none
  | [] => none

def skipBreak (cursor : Cursor) : Cursor :=
  match cursor.lineBreak? with
  | some (_, next) => next
  | none => cursor

/-- Whether a mark stands here that begins or ends a document. -/
def isAtMark (mark : String) (cursor : Cursor) : Bool :=
  cursor.rest.take 3 == mark.toList && endsWord (cursor.peek 3)

def isAtDocument (cursor : Cursor) : Bool := cursor.isAtMark "---" || cursor.isAtMark "..."

/-- Line ends after a first one, with the blanks around them; nothing where a document begins or ends
at the start of a line. -/
def furtherBreaks (belongs : Char → Bool) : Nat → Cursor → Option (List Char) × Cursor
  | 0, cursor => (some [], cursor)
  | fuel + 1, cursor =>
      if cursor.isAtDocument then (none, cursor)
      else
        let cursor := cursor.skipWhile belongs
        match cursor.lineBreak? with
        | none => (some [], cursor)
        | some (ended, next) =>
            let (more, last) := furtherBreaks belongs fuel next
            (more.map (ended :: ·), last)

/-- What the ends of lines inside of a scalar amount to: a single one is a space, and of several the
first is dropped. -/
def foldBreaks (first : Char) (further : List Char) : List Char :=
  if first ≠ '\n' then first :: further
  else if further.isEmpty then [' ']
  else further

end Cursor

end AnimationGrammar.Yaml
