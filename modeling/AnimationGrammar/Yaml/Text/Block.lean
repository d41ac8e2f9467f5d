import AnimationGrammar.Yaml.Text.Quoted

/-!
Block scalars: indented lines below a header.

The header says how far the lines are indented beyond their parent, if the first of them does not show
it, and what becomes of the line ends after the last line.  In a folded scalar a line end between two
lines that do not start with a blank becomes a space.
-/

namespace AnimationGrammar.Yaml

/-- What a block scalar keeps of the line ends after its last line. -/
inductive Chomp
  | clip | strip | keep
  deriving DecidableEq

/-- The header of a block scalar. -/
structure BlockHeader where
  chomp : Chomp := .clip
  /-- How far the lines are indented beyond their parent. -/
  increment : Option Nat := none

/-- What a sign says about the last line ends. -/
def chompSign? : Option Char → Option Chomp
  | some '+' => some .keep
  | some '-' => some .strip
  | _ => none

/-- The number that a single digit stands for. -/
def digit? : Option Char → Option Nat
  | some c => if c.isDigit then some (c.toNat - '0'.toNat) else none
  | none => none

/-- The two signs of a header, in either order. -/
def readBlockSigns (cursor : Cursor) : BlockHeader × Cursor :=
  match chompSign? (cursor.peek 0) with
  | some chomp =>
      match digit? (cursor.peek 1) with
      | some n => ({ chomp, increment := some n }, cursor.advance 2)
      | none => ({ chomp }, cursor.step)
  | none =>
      match digit? (cursor.peek 0) with
      | some n =>
          match chompSign? (cursor.peek 1) with
          | some chomp => ({ chomp, increment := some n }, cursor.advance 2)
          | none => ({ increment := some n }, cursor.step)
      | none => ({}, cursor)

/-- The rest of a line, which holds a comment at most. -/
def readLineRest (cursor : Cursor) : Except Problem Cursor :=
  let last := cursor.skipSpaces.skipComment
  if endsLine (last.peek 0) then .ok last.skipBreak else malformed

/-- The header of a block scalar with the rest of its line. -/
def readBlockHeader (cursor : Cursor) : Reading BlockHeader :=
  let (header, next) := readBlockSigns cursor
  if header.increment == some 0 || !endsPlainly (next.peek 0) then malformed
  else (readLineRest next).map fun last => (header, last)

/-- The line ends before the first line, the furthest column reached among them, and the place where
the first line begins. -/
def leadingBreaks : Nat → Nat → Cursor → List Char × Nat × Cursor
  | 0, widest, cursor => ([], widest, cursor)
  | fuel + 1, widest, cursor =>
      let cursor := cursor.skipSpaces
      let widest := max widest cursor.column
      match cursor.lineBreak? with
      | none => ([], widest, cursor)
      | some (ended, next) =>
          let (more, reached) := leadingBreaks fuel widest next
          (ended :: more, reached)

/-- The place after the indentation of a line, as far as the line has it. -/
def skipIndentation (indent : Nat) (cursor : Cursor) : Cursor :=
  cursor.advance ((cursor.rest.take (indent - cursor.column)).takeWhile (· == ' ')).length

/-- The line ends before a line, and the place where it begins. -/
def blockBreaks (indent : Nat) : Nat → Cursor → List Char × Cursor
  | 0, cursor => ([], cursor)
  | fuel + 1, cursor =>
      let cursor := skipIndentation indent cursor
      match cursor.lineBreak? with
      | none => ([], cursor)
      | some (ended, next) =>
          let (more, last) := blockBreaks indent fuel next
          (ended :: more, last)

/-- The lines of a block scalar. -/
structure BlockLines where
  text : List Char
  /-- The end of the last line, and the line ends after it. -/
  ended : List Char
  further : List Char
  cursor : Cursor

/-- Whether a line starts with something other than a blank. -/
def startsFull (cursor : Cursor) : Bool := (cursor.peek 0).all fun c => !isBlank c

/-- The lines of a block scalar from a place on, after the line ends before it. -/
def readBlockLines (folded : Bool) (indent : Nat) : Nat → List Char → Cursor → BlockLines
  | 0, breaks, cursor => ⟨[], [], breaks, cursor⟩
  | fuel + 1, breaks, cursor =>
      if cursor.column ≠ indent || cursor.rest.isEmpty then ⟨[], [], breaks, cursor⟩
      else
        let (line, next) := cursor.takeWhile fun c => !isBreak c
        let (ended, next) := match next.lineBreak? with
          | some (ended, next) => ([ended], next)
          | none => ([], next)
        let (further, last) := blockBreaks indent (next.rest.length + 1) next
        if last.column ≠ indent || last.rest.isEmpty then ⟨breaks ++ line, ended, further, last⟩
        else
          let folds := folded && ended == ['\n'] && startsFull cursor && startsFull last
          let between := if !folds then ended else if further.isEmpty then [' '] else []
          let later := readBlockLines folded indent fuel further last
          { later with text := breaks ++ line ++ between ++ later.text }

/-- The block scalar whose header follows here, below a parent with the given indentation. -/
def readBlockText (folded : Bool) (parent : Int) (cursor : Cursor) :
    Except Problem (List Char × Cursor) := do
  let (header, start) ← readBlockHeader cursor
  let least := (max (parent + 1) 1).toNat
  let fuel := start.rest.length + 1
  let (breaks, indent, first) := match header.increment with
    | some more =>
        let indent := least + more - 1
        let (breaks, first) := blockBreaks indent fuel start
        (breaks, indent, first)
    | none =>
        let (breaks, widest, first) := leadingBreaks fuel 0 start
        (breaks, max least widest, first)
  let lines := readBlockLines folded indent fuel breaks first
  let ending := match header.chomp with
    | .strip => []
    | .clip => lines.ended
    | .keep => lines.ended ++ lines.further
  return (lines.text ++ ending, lines.cursor)

end AnimationGrammar.Yaml
