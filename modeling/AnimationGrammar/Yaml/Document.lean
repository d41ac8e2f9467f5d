import AnimationGrammar.Yaml.Binary
import AnimationGrammar.Yaml.Node

/-!
The value of a YAML document.

A value is made round by round: the scalars of one depth before everything that lies deeper.  So of
several problems the least deep one is met first, and of those at one depth the first in the text.
-/

namespace AnimationGrammar.Yaml

/-- A problem, and the round in which it is met. -/
structure Flaw where
  round : Nat
  problem : Problem

/-- A part of a value, or the problem that is met first. -/
abbrev Built (α : Type) := Except Flaw α

namespace Built

variable {α β γ : Type}

/-- A problem of one round. -/
def fail (round : Nat) (problem : Problem) : Built α := .error ⟨round, problem⟩

/-- What is found at once. -/
def within (round : Nat) : Except Problem α → Built α
  | .ok found => .ok found
  | .error problem => fail round problem

/-- Two parts together: of two problems that of the earlier round is met, and the first one of one
round. -/
def both (combine : α → β → γ) : Built α → Built β → Built γ
  | .ok a, .ok b => .ok (combine a b)
  | .error flaw, .ok _ => .error flaw
  | .ok _, .error flaw => .error flaw
  | .error first, .error second => .error (if second.round < first.round then second else first)

end Built

/-- The entries of a mapping: those that merge keys bring in, and its own. -/
structure BuiltEntries where
  merged : Built (List (Atom × Value))
  own : Built (List (Atom × Value))

/-- All entries, of which the last one under a key holds. -/
def BuiltEntries.all (entries : BuiltEntries) : Built (List (Atom × Value)) :=
  Built.both (· ++ ·) entries.merged entries.own

namespace Node

mutual

/-- The text of a node that has to be a scalar.  A mapping stands for the scalar under its main key. -/
def scalarText? : Node → Option String
  | .scalar _ text => some text
  | .list _ _ => none
  | .mapping _ entries => mainText? entries

def mainText? : List (Node × Node) → Option String
  | [] => none
  | (key, value) :: rest => if key.tag = .main then scalarText? value else mainText? rest

end

def scalarValue (tag : Tag) (text : String) : Except Problem Value :=
  match tag with
  | .null => .ok .null
  | .boolean =>
      let spelled := String.ofList (text.toList.map Char.toLower)
      if spelled ∈ ["yes", "true", "on"] then .ok (.boolean true)
      else if spelled ∈ ["no", "false", "off"] then .ok (.boolean false)
      else .error (.fatal .unknownBoolean)
  | .integer => (readInteger text).map .integer
  | .double => (readDouble text).map .double
  | .moment => (readMoment text.toList).map fun moment => .atom (.time moment)
  | .text => .ok (.text text)
  | .binary => (readBinary text).map fun content => .atom (.bytes content)
  | _ => malformed

/-- Whether the value of a node with this tag is made in the round after its own. -/
def isLate : Tag → Bool
  | .list => true
  | .mapping => true
  | .set => true
  | .pairs => true
  | _ => false

/-- The value under a key has been built, and the key must be without parts. -/
def keyOf (round : Nat) : Built Value → Built Atom
  | .ok (.atom a) => .ok a
  | .ok _ => Built.fail round .malformed
  | .error flaw => if flaw.round ≤ round then .error flaw else Built.fail round .malformed

/-- The mapping of entries; the last one under a key holds, in the place of the first. -/
def mappingOf (entries : List (Atom × Value)) : Value :=
  .mapping (entries.foldl (fun all (key, value) => Json.putEntry key value all) [])

/-- A main key is a key like any text. -/
def mainKey (round : Nat) (key : Node) : Built Atom :=
  match key.scalarText? with
  | some text => .ok (.text text)
  | none => Built.fail round .malformed

mutual

/-- The value of a node that is met in a round. -/
def build (round : Nat) : Node → Built Value
  | .scalar tag text =>
      if isLate tag then Built.fail (round + 1) .malformed
      else Built.within round (scalarValue tag text)
  | .list tag items =>
      match tag with
      | .list => (buildItems (round + 1) items).map .list
      | .pairs => (buildPairs (round + 1) items).map .list
      | .mapping | .set => Built.fail (round + 1) .malformed
      | _ => Built.fail round .malformed
  | .mapping tag entries =>
      if tag = .mapping then (buildEntries (round + 1) entries).all.map mappingOf
      else if tag = .set then Built.fail (round + 1) (.fatal .notRepresented)
      else if isLate tag then Built.fail (round + 1) .malformed
      else
        match mainText? entries with
        | some text => Built.within round (scalarValue tag text)
        | none => Built.fail round .malformed

def buildItems (round : Nat) : List Node → Built (List Value)
  | [] => .ok []
  | item :: rest => Built.both (· :: ·) (item.build round) (buildItems round rest)

def buildPairs (round : Nat) : List Node → Built (List Value)
  | [] => .ok []
  | .mapping _ [(key, value)] :: rest =>
      Built.both (· :: ·)
        (Built.both (fun key value => Value.tuple [key, value]) (key.build round) (value.build round))
        (buildPairs round rest)
  | _ :: _ => Built.fail round .malformed

def buildEntries (round : Nat) : List (Node × Node) → BuiltEntries
  | [] => ⟨.ok [], .ok []⟩
  | (key, value) :: rest =>
      let later := buildEntries round rest
      if key.tag = .merge then
        { later with merged := Built.both (· ++ ·) (merge round value) later.merged }
      else
        let entry := Built.both Prod.mk
          (if key.tag = .main then mainKey round key else keyOf round (key.build round))
          (value.build round)
        { later with own := Built.both (· :: ·) entry later.own }

/-- The entries that the value of a merge key brings in: those of a mapping, or of several of which
the first takes precedence. -/
def merge (round : Nat) : Node → Built (List (Atom × Value))
  | .mapping _ entries => BuiltEntries.all (buildEntries round entries)
  | .list _ items => mergeEach round items
  | .scalar _ _ => Built.fail round .malformed

/-- The entries of several mappings, those of the first one last. -/
def mergeEach (round : Nat) : List Node → Built (List (Atom × Value))
  | [] => .ok []
  | .mapping _ entries :: rest =>
      Built.both (fun later own => later ++ own) (mergeEach round rest)
        (BuiltEntries.all (buildEntries round entries))
  | _ :: _ => Built.fail round .malformed

end

end Node

/-- The value of a text; a text that says nothing is null. -/
def read (text : String) : Except Problem Value := do
  match ← Node.ofTokens? (← tokensOf text) with
  | none => return .null
  | some node =>
      match node.build 0 with
      | .ok value => return value
      | .error flaw => .error flaw.problem

end AnimationGrammar.Yaml
