import AnimationGrammar.Yaml.Cursor

/-!
Plain scalars: texts without quotes.

A plain scalar is made of words.  A word ends at a gap, at a colon before a gap, and inside of brackets
at a character that structures them.  Words on one line keep the spaces between them; a line end
between words is folded.
-/

namespace AnimationGrammar.Yaml

/-- The characters that structure collections in brackets. -/
def isFlowMark (c : Char) : Bool := c ∈ [',', '[', ']', '\x7b', '\x7d']

/-- The characters that no plain scalar starts with, except that three of them may be followed by
something that makes them part of a word. -/
def isIndicator (c : Char) : Bool :=
  isFlowMark c ||
    c ∈ ['-', '?', ':', '#', '&', '*', '!', '|', '>', '\'', '"', '%', '@', '\x60']

/-- Whether a plain scalar starts here. -/
def startsPlain (inFlow : Bool) (cursor : Cursor) : Bool :=
  match cursor.peek 0 with
  | none => false
  | some c =>
      !(isGap c || isIndicator c) ||
        (!endsWord (cursor.peek 1) && (c == '-' || (!inFlow && (c == '?' || c == ':'))))

/-- The word at the start of a text. -/
def plainWord (inFlow : Bool) : List Char → List Char
  | [] => []
  | c :: rest =>
      let next := rest.head?
      let colonEnds := c == ':' && (endsWord next || (inFlow && next.any isFlowMark))
      if isGap c || colonEnds || (inFlow && (isFlowMark c || c == '?')) then []
      else c :: plainWord inFlow rest

/-- What stands between two words: nothing if the scalar has to end there. -/
structure PlainGap where
  text : List Char
  endsLine : Bool
  cursor : Cursor

def plainGap (cursor : Cursor) : PlainGap :=
  let (spaces, next) := cursor.takeWhile (· == ' ')
  match next.lineBreak? with
  | none => ⟨spaces, false, next⟩
  | some (first, next) =>
      match next.furtherBreaks (· == ' ') (next.rest.length + 1) with
      | (none, last) => ⟨[], true, last⟩
      | (some further, last) => ⟨Cursor.foldBreaks first further, true, last⟩

/-- A plain scalar, whether a line ended after its last word, and the place after it. -/
structure PlainText where
  text : List Char
  endsLine : Bool
  cursor : Cursor

/-- The words of a plain scalar from one on, after the gap before it.  Outside of brackets, a line that
is not indented as far as the least column ends the scalar. -/
def plainWords (inFlow : Bool) (least : Int) : Nat → PlainGap → PlainText
  | 0, gap => ⟨[], gap.endsLine, gap.cursor⟩
  | fuel + 1, gap =>
      let word := plainWord inFlow gap.cursor.rest
      if word.isEmpty || word.head? == some '#' then ⟨[], gap.endsLine, gap.cursor⟩
      else
        let next := plainGap (gap.cursor.advance word.length)
        let later :=
          if next.text.isEmpty || (!inFlow && (next.cursor.column : Int) < least) then
            ⟨[], next.endsLine, next.cursor⟩
          else plainWords inFlow least fuel next
        { later with text := gap.text ++ word ++ later.text }

/-- The plain scalar that starts here. -/
def readPlain (inFlow : Bool) (least : Int) (cursor : Cursor) : PlainText :=
  plainWords inFlow least (cursor.rest.length + 1) ⟨[], false, cursor⟩

end AnimationGrammar.Yaml
