import AnimationGrammar.Text.Utf8
import AnimationGrammar.Yaml.Text.Quoted
import AnimationGrammar.Yaml.Text.Block

/-!
Tokens: the parts that a YAML text is made of.

Besides the scalars there are the marks that structure a document.  Some of them are not written: where
a block begins and ends follows from the indentation.
-/

namespace AnimationGrammar.Yaml

/-- The name of a tag as a node gives it: a handle that stands for the start of the name, and the rest
of the name. -/
structure TagName where
  handle : Option String
  suffix : String

/-- A line before a document that says how to read it. -/
inductive Directive
  | version (major minor : Nat)
  | handle (handle meaning : String)
  | other

/-- A part of a text. -/
inductive Token
  | directive (directive : Directive)
  | documentStart
  | documentEnd
  | blockListStart
  | blockMappingStart
  | blockEnd
  | flowListStart
  | flowListEnd
  | flowMappingStart
  | flowMappingEnd
  /-- The comma inside of brackets, and the dash of a block. -/
  | flowEntry
  | blockEntry
  | key
  | value
  | alias (name : String)
  | anchor (name : String)
  | tag (name : TagName)
  | scalar (text : String) (isPlain : Bool)

/-- The name after the sign of an anchor or an alias. -/
def readAnchorName (cursor : Cursor) : Reading String :=
  let (name, next) := cursor.takeWhile isNameChar
  let ends := (next.peek 0).all fun c => isGap c || c ∈ ['?', ':', ',', ']', '\x7d', '%', '@', '\x60']
  if name.isEmpty || !ends then malformed else .ok (String.ofList name, next)

/-- Whether a character stands for itself in the name of a tag. -/
def isTagChar (c : Char) : Bool :=
  c.isAlphanum || c ∈ "-;/?:@&=+$,_.!~*'()[]".toList

/-- The bytes of escapes in the name of a tag: after each percent sign two hexadecimal digits. -/
def escapedBytes? : List Char → Option (List Nat)
  | '%' :: a :: b :: rest =>
      match Json.hexValue? a, Json.hexValue? b with
      | some a, some b => (escapedBytes? rest).map ((a * 16 + b) :: ·)
      | _, _ => none
  | '%' :: _ => none
  | _ => some []

/-- Characters of the name of a tag, in turns those that stand for themselves and escapes. -/
def readTagChars : Nat → Cursor → Reading (List Char)
  | 0, _ => malformed
  | fuel + 1, cursor =>
      match cursor.peek 0 with
      | some '%' =>
          match escapedBytes? cursor.rest with
          | none => malformed
          | some bytes =>
              match Utf8.decode bytes with
              | .error _ => malformed
              | .ok text =>
                  (readTagChars fuel (cursor.advance (3 * bytes.length))).map fun (more, last) =>
                    (text.toList ++ more, last)
      | some c =>
          if isTagChar c then
            (readTagChars fuel cursor.step).map fun (more, last) => (c :: more, last)
          else .ok ([], cursor)
      | none => .ok ([], cursor)

/-- The name of a tag from some character on; it is not empty. -/
def readTagSuffix (cursor : Cursor) : Reading String :=
  match readTagChars (cursor.rest.length + 1) cursor with
  | .ok ([], _) => malformed
  | .ok (name, next) => .ok (String.ofList name, next)
  | .error problem => .error problem

/-- A handle: an exclamation mark, or a name between two of them. -/
def readTagHandle (cursor : Cursor) : Reading String :=
  if cursor.peek 0 != some '!' then malformed
  else if cursor.peek 1 == some ' ' then .ok ("!", cursor.step)
  else
    let (name, next) := cursor.step.takeWhile isNameChar
    if next.peek 0 == some '!' then .ok (String.ofList ('!' :: name ++ ['!']), next.step)
    else malformed

/-- Whether another exclamation mark stands in the word that follows one. -/
def hasHandle (cursor : Cursor) : Bool :=
  '!' ∈ ((cursor.rest.drop 1).takeWhile fun c => !endsPlainly (some c))

/-- The tag that stands here, with its exclamation mark. -/
def readTag (cursor : Cursor) : Except Problem (TagName × Cursor) := do
  let (name, next) ← match cursor.peek 1 with
    | some '<' =>
        let (suffix, next) ← readTagSuffix (cursor.advance 2)
        if next.peek 0 == some '>' then pure ((⟨none, suffix⟩ : TagName), next.step) else malformed
    | after =>
        if endsWord after then pure (⟨none, "!"⟩, cursor.step)
        else if hasHandle cursor then
          let (handle, next) ← readTagHandle cursor
          let (suffix, next) ← readTagSuffix next
          pure (⟨some handle, suffix⟩, next)
        else
          let (suffix, next) ← readTagSuffix cursor.step
          pure (⟨some "!", suffix⟩, next)
  if endsPlainly (next.peek 0) then return (name, next) else malformed

def readVersionNumber (cursor : Cursor) : Reading Nat :=
  let (digits, next) := cursor.takeWhile Char.isDigit
  if digits.isEmpty then malformed
  else if Json.digitLimit < digits.length then .error (.tooManyDigits digits.length)
  else .ok (Json.digitsValue digits, next)

/-- The version that a directive asks for. -/
def readVersion (cursor : Cursor) : Except Problem (Directive × Cursor) := do
  let (major, next) ← readVersionNumber cursor.skipSpaces
  if next.peek 0 != some '.' then malformed
  else
    let (minor, next) ← readVersionNumber next.step
    if endsPlainly (next.peek 0) then return (.version major minor, next) else malformed

/-- A handle and what it stands for. -/
def readHandleMeaning (cursor : Cursor) : Except Problem (Directive × Cursor) := do
  let (handle, next) ← readTagHandle cursor.skipSpaces
  if next.peek 0 != some ' ' then malformed
  else
    let (meaning, next) ← readTagSuffix next.skipSpaces
    if endsPlainly (next.peek 0) then return (.handle handle meaning, next) else malformed

/-- The directive whose percent sign stands here, with the rest of its line. -/
def readDirective (cursor : Cursor) : Except Problem (Directive × Cursor) := do
  let (name, next) := cursor.step.takeWhile isNameChar
  if name.isEmpty || !endsPlainly (next.peek 0) then malformed
  else
    let (directive, next) ←
      if name = "YAML".toList then readVersion next
      else if name = "TAG".toList then readHandleMeaning next
      else pure (.other, next.skipWhile fun c => !isBreak c)
    return (directive, ← readLineRest next)

end AnimationGrammar.Yaml
