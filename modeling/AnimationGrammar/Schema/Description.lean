import AnimationGrammar.Schema.Export

/-!
Descriptions for editors.

Editors show `markdownDescription` where they find one.  `describe` gives it to every schema that has
a description, at the end of its object and with the same text.  Under `properties`, `$defs` and
`patternProperties` stand names and not keywords: the schemas there are described, but a name that is
spelled like a keyword is left alone.
-/

namespace AnimationGrammar

/-- The names under which an object maps names to schemas. -/
def isNameMap (key : Atom) : Bool :=
  key = .text "properties" || key = .text "$defs" || key = .text "patternProperties"

/-- What is found where names should be mapped to schemas. -/
structure NoNameMap where
  found : String
  deriving DecidableEq

/-- The entries of a schema with the description for editors, unless it is there already. -/
def withMarkdown (entries described : List (Atom × Value)) : List (Atom × Value) :=
  match lookupText "description" entries, lookupText "markdownDescription" entries with
  | some (.text text), none => described ++ [(.text "markdownDescription", .text text)]
  | _, _ => described

namespace Value

mutual

/-- A schema, or a value inside of one, with descriptions for editors. -/
def describe : Value → Except NoNameMap Value
  | .atom a => .ok (.atom a)
  | .list items => (describeItems items).map .list
  | .mapping entries => (describeEntries entries).map fun described =>
      .mapping (withMarkdown entries described)
  | .tuple items => .ok (.tuple items)
  | .record model fields => .ok (.record model fields)

def describeNames : Value → Except NoNameMap Value
  | .mapping entries => (describeValues entries).map .mapping
  | .atom a => .error ⟨(Value.atom a).typeLabel⟩
  | .list items => .error ⟨(Value.list items).typeLabel⟩
  | .tuple items => .error ⟨(Value.tuple items).typeLabel⟩
  | .record model fields => .error ⟨(Value.record model fields).typeLabel⟩

def describeItems : List Value → Except NoNameMap (List Value)
  | [] => .ok []
  | item :: rest =>
      match item.describe with
      | .error failure => .error failure
      | .ok described => (describeItems rest).map (described :: ·)

def describeEntries : List (Atom × Value) → Except NoNameMap (List (Atom × Value))
  | [] => .ok []
  | (key, value) :: rest =>
      match (if isNameMap key then value.describeNames else value.describe) with
      | .error failure => .error failure
      | .ok described => (describeEntries rest).map ((key, described) :: ·)

def describeValues : List (Atom × Value) → Except NoNameMap (List (Atom × Value))
  | [] => .ok []
  | (key, value) :: rest =>
      match value.describe with
      | .error failure => .error failure
      | .ok described => (describeValues rest).map ((key, described) :: ·)

end

end Value

end AnimationGrammar
