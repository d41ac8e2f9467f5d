import AnimationGrammar.Yaml.Token
import AnimationGrammar.Yaml.Text.Plain

/-!
The tokens of a text, with the structure that its layout gives.

Outside of brackets the indentation of a line opens and closes blocks.  That a scalar is a key shows
only at the colon after it, so the places where a key may have begun are remembered, one for each
depth of brackets, and the tokens of a key are put in before it once the colon is there.  Such a key
stands on one line and is not too long.
-/

namespace AnimationGrammar.Yaml

/-- A place where a key may have begun. -/
structure PossibleKey where
  /-- How many tokens stand before it. -/
  position : Nat
  /-- Whether nothing but a key can stand there. -/
  required : Bool
  index : Nat
  line : Nat
  column : Nat

/-- How far a text has been read. -/
structure Layout where
  cursor : Cursor
  /-- The tokens so far, the latest first. -/
  tokens : List Token := []
  /-- The column of the innermost block, and those of the blocks around it. -/
  indent : Int := -1
  outer : List Int := []
  /-- How many brackets are open. -/
  depth : Nat := 0
  /-- Whether a key may begin at this place. -/
  keyAllowed : Bool := true
  /-- The places where keys may have begun, by the depth of brackets. -/
  keys : List (Nat × PossibleKey) := []

/-- The length beyond which a key without a mark of its own is not one. -/
def keyLimit : Nat := 1024

namespace Layout

def inFlow (layout : Layout) : Bool := 0 < layout.depth

def push (layout : Layout) (token : Token) : Layout :=
  { layout with tokens := token :: layout.tokens }

/-- A token put in where a number of tokens stand before it. -/
def insert (layout : Layout) (position : Nat) (token : Token) : Layout :=
  let later := layout.tokens.length - position
  { layout with tokens := layout.tokens.take later ++ token :: layout.tokens.drop later }

/-- A token of so many characters. -/
def take (layout : Layout) (length : Nat) (token : Token) : Layout :=
  { layout.push token with cursor := layout.cursor.advance length }

/-- No key begins at this depth any more; a required one is missed. -/
def dropKey (layout : Layout) : Except Problem Layout :=
  if (layout.keys.lookup layout.depth).any (·.required) then malformed
  else .ok { layout with keys := layout.keys.filter (·.1 ≠ layout.depth) }

/-- Remember that a key may begin here. -/
def saveKey (layout : Layout) : Except Problem Layout :=
  if !layout.keyAllowed then .ok layout
  else
    let cursor := layout.cursor
    let key : PossibleKey :=
      { position := layout.tokens.length
        required := !layout.inFlow && layout.indent == cursor.column
        index := cursor.index
        line := cursor.line
        column := cursor.column }
    layout.dropKey.map fun layout => { layout with keys := (layout.depth, key) :: layout.keys }

/-- Forget the places where no key can have begun, because the line has ended or the key would be too
long. -/
def dropStaleKeys (layout : Layout) : Except Problem Layout :=
  let isStale (key : PossibleKey) : Bool :=
    key.line != layout.cursor.line || keyLimit < layout.cursor.index - key.index
  if layout.keys.any fun entry => isStale entry.2 && entry.2.required then malformed
  else .ok { layout with keys := layout.keys.filter fun entry => !isStale entry.2 }

/-- Close the blocks that are indented further than a column, the innermost first. -/
def closeBlocks (column : Int) (layout : Layout) : Layout :=
  if layout.inFlow then layout
  else
    let closed := (layout.indent :: layout.outer).takeWhile (column < ·)
    match (layout.indent :: layout.outer).drop closed.length with
    | indent :: outer =>
        { layout with
          indent
          outer
          tokens := List.replicate closed.length .blockEnd ++ layout.tokens }
    | [] => layout

/-- Whether a block begins at a column, which is further in than the innermost one. -/
def opensBlock (layout : Layout) (column : Nat) : Bool :=
  !layout.inFlow && layout.indent < column

def openBlock (layout : Layout) (column : Nat) : Layout :=
  { layout with indent := column, outer := layout.indent :: layout.outer }

/-- Blanks, comments and line ends before the next token.  A key may begin on a new line. -/
def skipGap : Nat → Layout → Layout
  | 0, layout => layout
  | fuel + 1, layout =>
      let cursor := layout.cursor.skipSpaces.skipComment
      match cursor.lineBreak? with
      | none => { layout with cursor }
      | some (_, next) =>
          skipGap fuel { layout with cursor := next, keyAllowed := layout.keyAllowed || !layout.inFlow }

/-- The place before the next token, with the blocks closed that end before it. -/
def prepare (layout : Layout) : Except Problem Layout :=
  let start := if layout.cursor.index = 0 && layout.cursor.peek 0 == some '\uFEFF' then
    { layout with cursor := layout.cursor.step } else layout
  (skipGap (start.cursor.rest.length + 1) start).dropStaleKeys.map fun layout =>
    layout.closeBlocks layout.cursor.column

/-- All blocks closed, at a place where a document begins or ends. -/
def endDocument (layout : Layout) : Except Problem Layout :=
  (layout.closeBlocks (-1)).dropKey.map fun layout => { layout with keyAllowed := false }

def takeDirective (layout : Layout) : Except Problem Layout := do
  let layout ← layout.endDocument
  let (directive, cursor) ← readDirective layout.cursor
  return { layout.push (.directive directive) with cursor }

def openFlow (layout : Layout) (token : Token) : Except Problem Layout :=
  layout.saveKey.map fun layout =>
    { layout.take 1 token with depth := layout.depth + 1, keyAllowed := true }

def closeFlow (layout : Layout) (token : Token) : Except Problem Layout :=
  if layout.depth = 0 then malformed
  else
    layout.dropKey.map fun layout =>
      { layout.take 1 token with depth := layout.depth - 1, keyAllowed := false }

def takeFlowEntry (layout : Layout) : Except Problem Layout :=
  layout.dropKey.map fun layout => { layout.take 1 .flowEntry with keyAllowed := true }

def takeBlockEntry (layout : Layout) : Except Problem Layout :=
  let column := layout.cursor.column
  if !layout.inFlow && !layout.keyAllowed then malformed
  else
    let opened :=
      if layout.opensBlock column then (layout.openBlock column).push .blockListStart else layout
    opened.dropKey.map fun layout => { layout.take 1 .blockEntry with keyAllowed := true }

def takeKeyMark (layout : Layout) : Except Problem Layout :=
  let column := layout.cursor.column
  if !layout.inFlow && !layout.keyAllowed then malformed
  else
    let opened :=
      if layout.opensBlock column then (layout.openBlock column).push .blockMappingStart else layout
    opened.dropKey.map fun layout => { layout.take 1 .key with keyAllowed := !layout.inFlow }

/-- A colon after a key, whose tokens are put in before it if it has no mark of its own. -/
def takeValueMark (layout : Layout) : Except Problem Layout :=
  match layout.keys.lookup layout.depth with
  | some key =>
      let layout := { layout with keys := layout.keys.filter (·.1 ≠ layout.depth) }
      let marked := layout.insert key.position .key
      let opened :=
        if layout.opensBlock key.column then
          (marked.openBlock key.column).insert key.position .blockMappingStart
        else marked
      .ok { opened.take 1 .value with keyAllowed := false }
  | none =>
      let column := layout.cursor.column
      if !layout.inFlow && !layout.keyAllowed then malformed
      else
        let opened :=
          if layout.opensBlock column then (layout.openBlock column).push .blockMappingStart
          else layout
        opened.dropKey.map fun layout => { layout.take 1 .value with keyAllowed := !layout.inFlow }

/-- A part of a node that may begin a key: an anchor, an alias, a tag or a scalar on one line. -/
def takeNodePart {α : Type} (layout : Layout) (read : Cursor → Reading α) (token : α → Token) :
    Except Problem Layout := do
  let layout ← layout.saveKey
  let (found, cursor) ← read layout.cursor
  return { layout.push (token found) with cursor, keyAllowed := false }

def takeQuoted (layout : Layout) (quote : Char) : Except Problem Layout :=
  layout.takeNodePart (readQuoted quote) fun text => .scalar (String.ofList text) false

/-- A plain scalar.  After the line on which it ends a key may begin. -/
def takePlain (layout : Layout) : Except Problem Layout :=
  layout.saveKey.map fun layout =>
    let plain := readPlain layout.inFlow (layout.indent + 1) layout.cursor
    { layout.push (.scalar (String.ofList plain.text) true) with
      cursor := plain.cursor
      keyAllowed := plain.endsLine }

def takeBlockScalar (layout : Layout) (folded : Bool) : Except Problem Layout := do
  let layout ← layout.dropKey
  let (text, cursor) ← readBlockText folded layout.indent layout.cursor.step
  return { layout.push (.scalar (String.ofList text) false) with cursor, keyAllowed := true }

/-- The next token, which starts with the given character. -/
def takeToken (layout : Layout) (c : Char) : Except Problem Layout :=
  let cursor := layout.cursor
  let standsAlone := endsWord (cursor.peek 1)
  let isMark := layout.inFlow || standsAlone
  if c = '%' && cursor.column = 0 then layout.takeDirective
  else if cursor.column = 0 && cursor.isAtMark "---" then
    layout.endDocument.map fun layout => layout.take 3 .documentStart
  else if cursor.column = 0 && cursor.isAtMark "..." then
    layout.endDocument.map fun layout => layout.take 3 .documentEnd
  else if c = '[' then layout.openFlow .flowListStart
  else if c = '\x7b' then layout.openFlow .flowMappingStart
  else if c = ']' then layout.closeFlow .flowListEnd
  else if c = '\x7d' then layout.closeFlow .flowMappingEnd
  else if c = ',' then layout.takeFlowEntry
  else if c = '-' && standsAlone then layout.takeBlockEntry
  else if c = '?' && isMark then layout.takeKeyMark
  else if c = ':' && isMark then layout.takeValueMark
  else if c = '*' then layout.takeNodePart (fun cursor => readAnchorName cursor.step) .alias
  else if c = '&' then layout.takeNodePart (fun cursor => readAnchorName cursor.step) .anchor
  else if c = '!' then layout.takeNodePart readTag .tag
  else if c = '|' && !layout.inFlow then layout.takeBlockScalar false
  else if c = '>' && !layout.inFlow then layout.takeBlockScalar true
  else if c = '\'' || c = '"' then layout.takeQuoted c
  else if startsPlain layout.inFlow cursor then layout.takePlain
  else malformed

/-- All tokens from a place on.  Every token takes a character, so the length of the text is fuel
enough. -/
def takeTokens : Nat → Layout → Except Problem (List Token)
  | 0, _ => malformed
  | fuel + 1, layout =>
      match layout.prepare with
      | .error problem => .error problem
      | .ok layout =>
          match layout.cursor.peek 0 with
          | none => layout.endDocument.map fun layout => layout.tokens.reverse
          | some c =>
              match layout.takeToken c with
              | .error problem => .error problem
              | .ok layout => takeTokens fuel layout

end Layout

def tokensOf (text : String) : Except Problem (List Token) :=
  if text.toList.all isPrintable then
    Layout.takeTokens (text.toList.length + 1) { cursor := { rest := text.toList } }
  else malformed

end AnimationGrammar.Yaml
