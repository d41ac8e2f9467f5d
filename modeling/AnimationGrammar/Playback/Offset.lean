import AnimationGrammar.Value.Display

/-!
Offsets for playback.

The options of a placement are handed on as they are, but for the offset: a range of an axis is
replaced by one number drawn from it, and of the flips only those that are set remain.
-/

namespace AnimationGrammar

/-- Why the options of a placement cannot be resolved. -/
inductive PlaybackFailure
  | notEnoughBounds (count : Nat)
  | tooManyBounds
  | offsetNotMapping (type : String)
  | boundsNotOrdered (second first : String)
  | boundsNotNumbers (high low : String)
  | boundTooLarge
  | noMoreDraws
  /-- A template kind that cannot be looked up. -/
  | kindNotHashable (type : String)
  | fileMissing
  deriving DecidableEq

namespace PlaybackFailure

def typeName : PlaybackFailure → String
  | notEnoughBounds _ => "ValueError"
  | tooManyBounds => "ValueError"
  | offsetNotMapping _ => "AttributeError"
  | boundsNotOrdered _ _ => "TypeError"
  | boundsNotNumbers _ _ => "TypeError"
  | boundTooLarge => "OverflowError"
  | noMoreDraws => "LookupError"
  | kindNotHashable _ => "TypeError"
  | fileMissing => "ValueError"

def message : PlaybackFailure → String
  | notEnoughBounds count => "not enough values to unpack (expected 2, got " ++ integerText count ++ ")"
  | tooManyBounds => "too many values to unpack (expected 2)"
  | offsetNotMapping type => "'" ++ type ++ "' object has no attribute 'get'"
  | boundsNotOrdered second first =>
      "'<' not supported between instances of '" ++ second ++ "' and '" ++ first ++ "'"
  | boundsNotNumbers high low =>
      "unsupported operand type(s) for -: '" ++ high ++ "' and '" ++ low ++ "'"
  | boundTooLarge => "int too large to convert to float"
  | noMoreDraws => "rng exhausted"
  | kindNotHashable type => "unhashable type: '" ++ type ++ "'"
  | fileMissing => "template preset requires a resolved \x60file\x60"

end PlaybackFailure

/-- Something computed from the numbers of a random source, with the state of the source after it. -/
abbrev Drawing (σ α : Type) := σ → Except PlaybackFailure (α × σ)

/-- A random source: a number between two bounds. -/
structure RandomSource (σ : Type) where
  uniform : Numeral → Numeral → Drawing σ Double

/-- The difference of two numbers; it is exact for integers. -/
def Numeral.difference? (high low : Numeral) : Option Numeral :=
  match high, low with
  | .integer a, .integer b => some (.integer (a - b))
  | _, _ =>
      match high.toDouble?, low.toDouble? with
      | some a, some b => some (.double (a.subtract b))
      | _, _ => none

/-- The point between two bounds at a fraction of the way. -/
def interpolate (low high : Numeral) (fraction : Double) : Option Double := do
  let width ← (← high.difference? low).toDouble?
  return (← low.toDouble?).add (width.multiply fraction)

/-- The random source that takes its fractions from a list. -/
def RandomSource.ofList : RandomSource (List Double) where
  uniform low high fractions :=
    match high.difference? low, fractions with
    | none, _ => .error .boundTooLarge
    | some _, [] => .error .noMoreDraws
    | some _, fraction :: rest =>
        match interpolate low high fraction with
        | some x => .ok (x, rest)
        | none => .error .boundTooLarge

/-- The number that a bound is: a boolean counts as zero or one. -/
def boundNumeral? : Value → Option Numeral
  | .atom a => a.numeral?
  | _ => none

mutual

def boundIsLess : Value → Value → Except PlaybackFailure Bool
  | .list xs, .list ys => boundsAreLess xs ys
  | .tuple xs, .tuple ys => boundsAreLess xs ys
  | a, b =>
      match boundNumeral? a, boundNumeral? b, a, b with
      | some x, some y, _, _ => .ok (x.isLess y)
      | _, _, .text x, .text y => .ok (x < y)
      | _, _, _, _ => .error (.boundsNotOrdered a.typeLabel b.typeLabel)

/-- Whether one list is below another: the first items that differ decide, and a list is above those
that it begins with. -/
def boundsAreLess : List Value → List Value → Except PlaybackFailure Bool
  | _, [] => .ok false
  | [], _ :: _ => .ok true
  | x :: xs, y :: ys => if x.isEqual y then boundsAreLess xs ys else boundIsLess x y

end

/-- The first bounds next to each other that cannot be ordered. -/
def checkOrdered : List Value → Except PlaybackFailure Unit
  | first :: second :: rest =>
      match boundIsLess second first with
      | .error failure => .error failure
      | .ok _ => checkOrdered (second :: rest)
  | _ => .ok ()

/-- Two bounds in their order; more or fewer are compared before they are counted. -/
def sortedBounds (range : List Value) : Except PlaybackFailure (Value × Value) :=
  match range with
  | [a, b] =>
      match boundIsLess b a with
      | .error failure => .error failure
      | .ok secondIsLess => .ok (if secondIsLess then (b, a) else (a, b))
  | other =>
      match checkOrdered other with
      | .error failure => .error failure
      | .ok () =>
          .error (if other.length < 2 then .notEnoughBounds other.length else .tooManyBounds)

variable {σ : Type}

def drawFrom (source : RandomSource σ) (range : List Value) : Drawing σ Double := fun state =>
  match sortedBounds range with
  | .error failure => .error failure
  | .ok (low, high) =>
      match boundNumeral? low, boundNumeral? high with
      | some a, some b => source.uniform a b state
      | _, _ => .error (.boundsNotNumbers high.typeLabel low.typeLabel)

/-- An axis of an offset: a range is drawn from, null counts as not given. -/
def resolveAxis (source : RandomSource σ) (offset : Value) (axis : String) :
    Drawing σ (List (Atom × Value)) := fun state =>
  match offset.get? axis with
  | none => .ok ([], state)
  | some .null => .ok ([], state)
  | some (.list range) =>
      (drawFrom source range state).map fun (x, state) => ([(.text axis, .double x)], state)
  | some (.tuple range) =>
      (drawFrom source range state).map fun (x, state) => ([(.text axis, .double x)], state)
  | some value => .ok ([(.text axis, value)], state)

def resolveFlips (offset : Value) : List (Atom × Value) :=
  ["flipX", "flipY"].filterMap fun flag =>
    match offset.get? flag with
    | some value => if value.isTruthy then some (.text flag, .boolean true) else none
    | none => none

/-- An offset with its ranges drawn from, the one of `x` first. -/
def resolveOffset (source : RandomSource σ) (offset : Value) : Drawing σ Value := fun state =>
  match offset with
  | .mapping _ =>
      match resolveAxis source offset "x" state with
      | .error failure => .error failure
      | .ok (x, state) =>
          (resolveAxis source offset "y" state).map fun (y, state) =>
            (.mapping (x ++ y ++ resolveFlips offset), state)
  | other => .error (.offsetNotMapping other.typeLabel)

namespace Value

mutual

/-- A validated value as plain data: records become mappings of the fields that are not null. -/
def dump : Value → Value
  | .atom a => .atom a
  | .list items => .list (dumpItems items)
  | .tuple items => .tuple (dumpItems items)
  | .mapping entries => .mapping (dumpEntries entries)
  | .record _ fields => .mapping (dumpFields fields)

def dumpItems : List Value → List Value
  | [] => []
  | item :: rest => item.dump :: dumpItems rest

def dumpEntries : List (Atom × Value) → List (Atom × Value)
  | [] => []
  | (key, value) :: rest => (key, value.dump) :: dumpEntries rest

def dumpFields : List (String × Value) → List (Atom × Value)
  | [] => []
  | (_, .null) :: rest => dumpFields rest
  | (name, value) :: rest => (.text name, value.dump) :: dumpFields rest

end

end Value

/-- The options of a placement as a mapping; a placement that is only switched on has none. -/
def placementEntries : Value → List (Atom × Value)
  | .mapping entries => entries
  | .record model fields =>
      match (Value.record model fields).dump with
      | .mapping entries => entries
      | _ => []
  | _ => []

/-- The options of a placement with the offset resolved.  An empty offset is dropped. -/
def resolvePlacement (source : RandomSource σ) (options : Value) :
    Drawing σ (List (Atom × Value)) := fun state =>
  let entries := placementEntries options
  let others := entries.filter fun (key, _) => key ≠ .text "offset"
  match lookupText "offset" entries with
  | none => .ok (others, state)
  | some offset =>
      if offset.isTruthy then
        (resolveOffset source offset state).map fun (resolved, state) =>
          (others ++ [(.text "offset", resolved)], state)
      else .ok (others, state)

end AnimationGrammar
