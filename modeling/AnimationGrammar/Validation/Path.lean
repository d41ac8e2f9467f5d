import AnimationGrammar.Validation.Check

/-!
Paths: the keys and positions that lead from a document to a place in it.

A fault's location also names the branches of unions.  `retrace` walks a location through the
document itself and leaves out every step that is the label of a branch there, so that what remains
leads to the faulty place.  It looks at the document only, not at how validation went.
-/

namespace AnimationGrammar

/-- Keys and positions, from the outside in. -/
abbrev Path := List Atom

/-- The 64-bit integers. -/
def fitsWord (n : Int) : Bool := -wordLimit ≤ n && n < wordLimit

/-- A step as it stands in a path: a key that is no text and no integer is written out. -/
def Step.item : Step → Atom
  | .label name => .text name
  | .index position => .number (.integer position)
  | .key (.text name) => .text name
  | .key (.boolean value) => .number (.integer (if value then 1 else 0))
  | .key (.number (.integer n)) =>
      if fitsWord n then .number (.integer n) else .text (integerText n)
  | .key other => .text other.literal

/-- The location of a fault as it stands in a report, labels included. -/
def Fault.items (fault : Fault) : Path := fault.location.map Step.item

/-- The labels under which some union may enter a branch for a value. -/
def Value.unionTags (value : Value) : List String :=
  (value.kind?.map Kind.label).toList ++ (predicateLabel? value).toList ++
    (match value with
      | .mapping entries =>
          match lookupText "type" entries with
          | some (.text tag) => [tag]
          | _ => []
      | .list items => [integerText items.length]
      | .tuple items => [integerText items.length]
      | _ => [])

/-- The position that a step stands for: false and true stand for the first and the second. -/
def Atom.position? : Atom → Option Nat
  | .number (.integer n) => if 0 ≤ n then some n.toNat else none
  | .boolean value => some (if value then 1 else 0)
  | _ => none

def Value.enter? : Value → Atom → Option Value
  | .mapping entries, .text name => lookupText name entries
  | .list items, step => step.position?.bind (items[·]?)
  | .tuple items, step => step.position?.bind (items[·]?)
  | _, _ => none

/-- Whether a step is the label of a branch for a value. -/
def Value.isTag (value : Value) : Atom → Bool
  | .text name => name ∈ value.unionTags
  | _ => false

/--
The path that a location describes in a document.  A label is left out wherever it is not the last
step, and so is a key that is called like a label of its object.  The last step may name a key that is
missing.
-/
def retrace (missing : Bool) : List Atom → Value → Path
  | [], _ => []
  | step :: rest, current =>
      let isLast := rest.isEmpty
      if current.isTag step && !isLast then retrace missing rest current
      else
        match current.enter? step with
        | some next => step :: retrace missing rest next
        | none =>
            if isLast && missing && !current.isTag step then [step]
            else retrace missing rest current

end AnimationGrammar
