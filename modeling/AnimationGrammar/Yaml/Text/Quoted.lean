import AnimationGrammar.Json.Reader
import AnimationGrammar.Yaml.Cursor
import AnimationGrammar.Yaml.Problem

/-!
Quoted scalars.

Both kinds of quotes keep what is between them, except that line ends are folded.  In single quotes a
quote is written twice; in double quotes a backslash begins an escape, and one at the end of a line
takes that line end back.
-/

namespace AnimationGrammar.Yaml

open Json (hexValue?)

/-- Reading a part of a text: what it stands for, and the place after it. -/
abbrev Reading (α : Type) := Except Problem (α × Cursor)

/-- The escapes of one letter. -/
def escapes : List (Char × Char) :=
  [('0', '\x00'), ('a', '\x07'), ('b', '\x08'), ('t', '\t'), ('\t', '\t'), ('n', '\n'),
   ('v', '\x0b'), ('f', '\x0c'), ('r', '\r'), ('e', '\x1b'), (' ', ' '), ('"', '"'), ('\\', '\\'),
   ('/', '/'), ('N', '\u0085'), ('_', '\u00a0'), ('L', '\u2028'), ('P', '\u2029')]

/-- How many hexadecimal digits follow the letter of an escape. -/
def escapeWidths : List (Char × Nat) := [('x', 2), ('u', 4), ('U', 8)]

/-- The character of a code point; half of a surrogate pair has none. -/
def codeChar (code : Nat) : Except Problem Char :=
  if Nat.pow 2 31 ≤ code then .error (.fatal .overflow)
  else if 0x110000 ≤ code then .error .codePointTooLarge
  else if code.isValidChar then .ok (Char.ofNat code)
  else .ok '\uFFFD'

/-- The character of so many hexadecimal digits. -/
def readHex (width : Nat) (cursor : Cursor) : Reading (List Char) :=
  let digits := cursor.rest.take width
  if digits.length = width && digits.all (fun c => (hexValue? c).isSome) then
    (codeChar (digits.foldl (fun value c => value * 16 + (hexValue? c).getD 0) 0)).map
      fun c => ([c], cursor.advance width)
  else malformed

/-- An escape, from the character after its backslash on. -/
def readEscape (cursor : Cursor) : Reading (List Char) :=
  match cursor.peek 0 with
  | none => malformed
  | some letter =>
      match escapes.lookup letter, escapeWidths.lookup letter, cursor.lineBreak? with
      | some meant, _, _ => .ok ([meant], cursor.step)
      | none, some width, _ => readHex width cursor.step
      | none, none, some (_, next) =>
          match next.furtherBreaks isBlank (next.rest.length + 1) with
          | (some further, last) => .ok (further, last)
          | (none, _) => malformed
      | none, none, none => malformed

/-- Blanks, or the folded line ends after them. -/
def readQuotedGap (cursor : Cursor) : Reading (List Char) :=
  let (blanks, next) := cursor.takeWhile isBlank
  match next.lineBreak? with
  | none => .ok (blanks, next)
  | some (first, next) =>
      match next.furtherBreaks isBlank (next.rest.length + 1) with
      | (some further, last) => .ok (Cursor.foldBreaks first further, last)
      | (none, _) => malformed

/-- One piece of a quoted scalar; nothing at its closing quote. -/
def readQuotedPiece (quote : Char) (cursor : Cursor) : Except Problem (Option (List Char × Cursor)) :=
  match cursor.rest with
  | [] => malformed
  | c :: rest =>
      if c = quote then
        if quote = '\'' && rest.head? == some '\'' then .ok (some (['\''], cursor.advance 2))
        else .ok none
      else if c = '\\' && quote = '"' then (readEscape cursor.step).map some
      else if isGap c then (readQuotedGap cursor).map some
      else .ok (some ([c], cursor.step))

def readQuotedRest (quote : Char) : Nat → Cursor → Reading (List Char)
  | 0, _ => malformed
  | fuel + 1, cursor =>
      match readQuotedPiece quote cursor with
      | .error problem => .error problem
      | .ok none => .ok ([], cursor.step)
      | .ok (some (piece, next)) =>
          (readQuotedRest quote fuel next).map fun (text, last) => (piece ++ text, last)

/-- The quoted scalar whose opening quote stands here. -/
def readQuoted (quote : Char) (cursor : Cursor) : Reading (List Char) :=
  readQuotedRest quote (cursor.rest.length + 1) cursor.step

end AnimationGrammar.Yaml
