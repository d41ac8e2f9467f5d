import AnimationGrammar.Yaml.Layout
import AnimationGrammar.Yaml.Tag

/-!
Nodes: the tree that the tokens of a document describe.

Every node has a tag.  An alias stands for the node of an anchor before it, so it becomes a copy of
that node; inside of the node itself there is nothing to copy, and the text is not read.  A text holds one
document at most.
-/

namespace AnimationGrammar.Yaml

inductive Node
  | scalar (tag : Tag) (text : String)
  | list (tag : Tag) (items : List Node)
  | mapping (tag : Tag) (entries : List (Node × Node))

def Node.tag : Node → Tag
  | scalar tag _ => tag
  | list tag _ => tag
  | mapping tag _ => tag

/-- What an omitted node stands for. -/
def Node.empty : Node := .scalar .null ""

/-- The anchors met so far with their nodes; one whose node has not ended is without a node. -/
abbrev Anchors := List (String × Option Node)

/-- What the handles of tags stand for. -/
abbrev Handles := List (String × String)

/-- The handles that every document has. -/
def defaultHandles : Handles := [("!", "!"), ("!!", Tag.standard)]

/-- How far the tokens of a document have been read. -/
structure Progress where
  tokens : List Token
  anchors : Anchors

/-- Reading a part of a document. -/
abbrev Parsing (α : Type) := Except Problem (α × Progress)

/-- What is said of a node before the node itself. -/
structure Properties where
  anchor : Option String := none
  tag : Option TagName := none

/-- The anchor and the tag of a node, in either order. -/
def takeProperties : List Token → Properties × List Token
  | .anchor anchor :: .tag tag :: rest => ({ anchor := some anchor, tag := some tag }, rest)
  | .tag tag :: .anchor anchor :: rest => ({ anchor := some anchor, tag := some tag }, rest)
  | .anchor anchor :: rest => ({ anchor := some anchor }, rest)
  | .tag tag :: rest => ({ tag := some tag }, rest)
  | rest => ({}, rest)

/-- What a node says about its tag. -/
inductive TagChoice
  /-- Nothing, so quotes make a scalar a text. -/
  | unsaid
  /-- That the spelling decides. -/
  | bySpelling
  | named (tag : Tag)

def TagChoice.of (handles : Handles) : Option TagName → Except Problem TagChoice
  | none => .ok unsaid
  | some ⟨none, suffix⟩ => .ok (choose suffix)
  | some ⟨some handle, suffix⟩ =>
      match handles.lookup handle with
      | some meaning => .ok (choose (meaning ++ suffix))
      | none => malformed
where
  choose (name : String) : TagChoice := if name = "!" then bySpelling else named (Tag.ofName name)

def TagChoice.ofScalar (text : String) (isPlain : Bool) : TagChoice → Tag
  | unsaid => if isPlain then Tag.ofText text else .text
  | bySpelling => Tag.ofText text
  | named tag => tag

/-- The tag of a collection that has the given one by its shape. -/
def TagChoice.ofShape (shape : Tag) : TagChoice → Tag
  | named tag => tag
  | _ => shape

/-- Whether an item or an entry of a block is empty, because the next one begins or the block ends. -/
def Token.endsBlockItem : Token → Bool
  | blockEntry => true
  | blockEnd => true
  | _ => false

def Token.endsBlockEntry : Token → Bool
  | key => true
  | value => true
  | blockEnd => true
  | _ => false

def Token.endsFlowItem : Token → Bool
  | flowEntry => true
  | flowListEnd => true
  | flowMappingEnd => true
  | _ => false

/-- Whether the first token is one that leaves no room for a node. -/
def leavesOut (ends : Token → Bool) (tokens : List Token) : Bool := tokens.head?.any ends

/-- Where nodes stand. -/
inductive Place
  | flow
  | block
  /-- After a key or a colon of a block, where the dashes of a list need no further indentation. -/
  | blockEntry
  deriving DecidableEq

/-- Remember an anchor, with its node when that has ended. -/
def Progress.settle (anchor : Option String) (node : Option Node) (progress : Progress) : Progress :=
  match anchor with
  | none => progress
  | some name => { progress with anchors := (name, node) :: progress.anchors }

mutual

def parseNode (handles : Handles) : Nat → Place → Progress → Parsing Node
  | 0, _, _ => malformed
  | fuel + 1, place, progress =>
      match progress.tokens with
      | .alias name :: rest =>
          match progress.anchors.lookup name with
          | some (some node) => .ok (node, { progress with tokens := rest })
          | some none => .error (.fatal .notRepresented)
          | none => malformed
      | tokens =>
          let (properties, rest) := takeProperties tokens
          if properties.anchor.any fun name => (progress.anchors.lookup name).isSome then malformed
          else
            match TagChoice.of handles properties.tag with
            | .error problem => .error problem
            | .ok tag =>
                let isGiven := properties.anchor.isSome || properties.tag.isSome
                let begun : Progress :=
                  Progress.settle properties.anchor none { progress with tokens := rest }
                (parseContent handles fuel place tag isGiven begun).map fun (node, progress) =>
                  (node, progress.settle properties.anchor node)

/-- A node after its properties.  It may be left out if there are any. -/
def parseContent (handles : Handles) :
    Nat → Place → TagChoice → (isGiven : Bool) → Progress → Parsing Node
  | 0, _, _, _, _ => malformed
  | fuel + 1, place, tag, isGiven, ⟨tokens, anchors⟩ =>
      let list (found : Parsing (List Node)) : Parsing Node :=
        found.map fun (items, progress) => (.list (tag.ofShape .list) items, progress)
      let mapping (found : Parsing (List (Node × Node))) : Parsing Node :=
        found.map fun (entries, progress) => (.mapping (tag.ofShape .mapping) entries, progress)
      let omitted : Parsing Node :=
        if isGiven then
          .ok (.scalar (match tag with
            | .unsaid => .null
            | tag => tag.ofScalar "" true) "", ⟨tokens, anchors⟩)
        else malformed
      match tokens with
      | .scalar text isPlain :: rest =>
          .ok (.scalar (tag.ofScalar text isPlain) text, ⟨rest, anchors⟩)
      | .flowListStart :: rest => list (parseFlowItems handles fuel true ⟨rest, anchors⟩)
      | .flowMappingStart :: rest => mapping (parseFlowEntries handles fuel true ⟨rest, anchors⟩)
      | .blockListStart :: rest =>
          if place = .flow then omitted else list (parseItems handles fuel false ⟨rest, anchors⟩)
      | .blockMappingStart :: rest =>
          if place = .flow then omitted else mapping (parseEntries handles fuel ⟨rest, anchors⟩)
      | .blockEntry :: _ =>
          if place = .blockEntry then list (parseItems handles fuel true ⟨tokens, anchors⟩)
          else omitted
      | _ => omitted

/-- A node of a block, which is empty if a token follows that ends it. -/
def parseBlockPart (handles : Handles) :
    Nat → Place → (Token → Bool) → Progress → Parsing Node
  | 0, _, _, _ => malformed
  | fuel + 1, place, ends, progress =>
      if leavesOut ends progress.tokens then .ok (.empty, progress)
      else parseNode handles fuel place progress

/-- The items of a list with dashes.  If the list is not indented, it ends with the last dash, and the
tokens of a mapping around it may follow. -/
def parseItems (handles : Handles) : Nat → (isOpen : Bool) → Progress → Parsing (List Node)
  | 0, _, _ => malformed
  | fuel + 1, isOpen, progress =>
      match progress.tokens with
      | .blockEntry :: rest =>
          let ends (token : Token) : Bool :=
            token.endsBlockItem || (isOpen && token.endsBlockEntry)
          match parseBlockPart handles fuel .block ends { progress with tokens := rest } with
          | .error problem => .error problem
          | .ok (item, progress) =>
              (parseItems handles fuel isOpen progress).map fun (items, progress) =>
                (item :: items, progress)
      | tokens =>
          if isOpen then .ok ([], progress)
          else
            match tokens with
            | .blockEnd :: rest => .ok ([], { progress with tokens := rest })
            | _ => malformed

def parseEntries (handles : Handles) : Nat → Progress → Parsing (List (Node × Node))
  | 0, _ => malformed
  | fuel + 1, progress =>
      match progress.tokens with
      | .blockEnd :: rest => .ok ([], { progress with tokens := rest })
      | .key :: rest =>
          match parseBlockPart handles fuel .blockEntry Token.endsBlockEntry
              { progress with tokens := rest } with
          | .error problem => .error problem
          | .ok (key, progress) =>
              let valued : Parsing Node := match progress.tokens with
                | .value :: rest =>
                    parseBlockPart handles fuel .blockEntry Token.endsBlockEntry
                      { progress with tokens := rest }
                | _ => .ok (.empty, progress)
              match valued with
              | .error problem => .error problem
              | .ok (value, progress) =>
                  (parseEntries handles fuel progress).map fun (entries, progress) =>
                    ((key, value) :: entries, progress)
      | _ => malformed

/-- A key inside of brackets after its mark, and the value after its colon, each of which may be left
out. -/
def parseFlowEntry (handles : Handles) : Nat → Progress → Parsing (Node × Node)
  | 0, _ => malformed
  | fuel + 1, progress =>
      let isOver (token : Token) : Bool := token.endsFlowItem
      let keyed : Parsing Node := match progress.tokens with
        | .value :: _ => .ok (.empty, progress)
        | _ => parseBlockPart handles fuel .flow isOver progress
      match keyed with
      | .error problem => .error problem
      | .ok (key, progress) =>
          match progress.tokens with
          | .value :: rest =>
              (parseBlockPart handles fuel .flow isOver { progress with tokens := rest }).map
                fun (value, progress) => ((key, value), progress)
          | _ => .ok ((key, .empty), progress)

/-- The items of a list in brackets; a pair makes a mapping of its own. -/
def parseFlowItems (handles : Handles) : Nat → (isFirst : Bool) → Progress → Parsing (List Node)
  | 0, _, _ => malformed
  | fuel + 1, isFirst, progress =>
      let start : Option (List Token) := match progress.tokens with
        | .flowEntry :: rest => if isFirst then none else some rest
        | tokens => if isFirst then some tokens else none
      match progress.tokens, start with
      | .flowListEnd :: rest, _ => .ok ([], { progress with tokens := rest })
      | _, none => malformed
      | _, some (.flowListEnd :: rest) => .ok ([], { progress with tokens := rest })
      | _, some tokens =>
          let item : Parsing Node := match tokens with
            | .key :: rest =>
                (parseFlowEntry handles fuel { progress with tokens := rest }).map
                  fun (entry, progress) => (.mapping .mapping [entry], progress)
            | _ => parseNode handles fuel .flow { progress with tokens }
          match item with
          | .error problem => .error problem
          | .ok (item, progress) =>
              (parseFlowItems handles fuel false progress).map fun (items, progress) =>
                (item :: items, progress)

/-- The entries of a mapping in brackets; one without a colon has an empty value. -/
def parseFlowEntries (handles : Handles) :
    Nat → (isFirst : Bool) → Progress → Parsing (List (Node × Node))
  | 0, _, _ => malformed
  | fuel + 1, isFirst, progress =>
      let start : Option (List Token) := match progress.tokens with
        | .flowEntry :: rest => if isFirst then none else some rest
        | tokens => if isFirst then some tokens else none
      match progress.tokens, start with
      | .flowMappingEnd :: rest, _ => .ok ([], { progress with tokens := rest })
      | _, none => malformed
      | _, some (.flowMappingEnd :: rest) => .ok ([], { progress with tokens := rest })
      | _, some tokens =>
          let entry : Parsing (Node × Node) := match tokens with
            | .key :: rest => parseFlowEntry handles fuel { progress with tokens := rest }
            | _ =>
                (parseNode handles fuel .flow { progress with tokens }).map
                  fun (key, progress) => ((key, .empty), progress)
          match entry with
          | .error problem => .error problem
          | .ok (entry, progress) =>
              (parseFlowEntries handles fuel false progress).map fun (entries, progress) =>
                (entry :: entries, progress)

end

/-- What directives say: whether they name a version, and the handles that they define. -/
structure Declarations where
  hasVersion : Bool := false
  handles : Handles := []

/-- The directives before a document.  A version is named once at most, and so is a handle. -/
def takeDirectives (found : Declarations) : List Token → Except Problem (Declarations × List Token)
  | .directive (.version major _) :: rest =>
      if found.hasVersion || major ≠ 1 then malformed
      else takeDirectives { found with hasVersion := true } rest
  | .directive (.handle handle meaning) :: rest =>
      if (found.handles.lookup handle).isSome then malformed
      else takeDirectives { found with handles := (handle, meaning) :: found.handles } rest
  | .directive .other :: rest => takeDirectives found rest
  | rest => .ok (found, rest)

/-- Whether nothing follows a document but marks of its end. -/
def isFinished : List Token → Bool
  | [] => true
  | .documentEnd :: rest => isFinished rest
  | _ :: _ => false

/-- Whether a document that has been begun says nothing. -/
def isEmptyDocument : List Token → Bool
  | [] => true
  | .documentEnd :: _ => true
  | _ => false

/-- The node of the document that tokens describe, if there is one. -/
def Node.ofTokens? (tokens : List Token) : Except Problem (Option Node) := do
  let finish (handles : Handles) (tokens : List Token) : Except Problem (Option Node) :=
    match parseNode handles (4 * tokens.length + 4) .block ⟨tokens, []⟩ with
    | .error problem => .error problem
    | .ok (node, progress) => if isFinished progress.tokens then .ok (some node) else malformed
  match tokens with
  | [] => return none
  | .directive _ :: _ | .documentStart :: _ =>
      match ← takeDirectives {} tokens with
      | (found, .documentStart :: rest) =>
          if isEmptyDocument rest then
            if isFinished rest then return some .empty else malformed
          else finish (found.handles ++ defaultHandles) rest
      | _ => malformed
  | _ => finish defaultHandles tokens

end AnimationGrammar.Yaml
