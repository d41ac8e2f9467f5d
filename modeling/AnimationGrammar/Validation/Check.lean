import AnimationGrammar.Validation.Branch
import AnimationGrammar.Value.Canonical

/-!
Validation of a value against a form.

`Value.check` follows the value.  At every place it settles which form the value has to follow there,
validates the parts, and puts their results together: all faults of the parts are reported, and the
conditions on the whole are looked at only when every part is in order.
-/

namespace AnimationGrammar

/-- The validated value, or everything that is wrong. -/
abbrev Outcome := Except (List Fault) Value

namespace Outcome

/-- A single fault at the place itself. -/
def refuse (cause : Cause) : Outcome := .error [⟨[], cause⟩]

/-- The outcome seen from one step further out. -/
def under (step : Step) : Outcome → Outcome
  | .ok value => .ok value
  | .error faults => .error (faults.map (Fault.under step))

/-- The outcome seen from outside of some union branches. -/
def underLabels : List String → Outcome → Outcome
  | [], outcome => outcome
  | label :: rest, outcome => under (.label label) (underLabels rest outcome)

def faults : Outcome → List Fault
  | .ok _ => []
  | .error faults => faults

/-- The values of several outcomes, or the faults of them all. -/
def collect : List Outcome → Except (List Fault) (List Value)
  | [] => .ok []
  | .ok value :: rest => (collect rest).map (value :: ·)
  | .error faults :: rest =>
      match collect rest with
      | .ok _ => .error faults
      | .error later => .error (faults ++ later)

/-- Outcomes seen from the list in which they stand, from a position on. -/
def atPositions : Nat → List Outcome → List Outcome
  | _, [] => []
  | position, outcome :: rest =>
      under (.index position) outcome :: atPositions (position + 1) rest

end Outcome

open Outcome

/-- A text that follows a rule, or the fault of one that does not. -/
def TextRule.check (text : String) : TextRule → Except Cause String
  | any => .ok text
  | nonEmpty => if text = "" then .error .textEmpty else .ok text
  | format kind => if kind.accepts text then .ok text else .error (.badFormat kind)
  | animationId =>
      if !TextFormat.slug.accepts text then .error (.badFormat .slug)
      else if text.length < 6 then .error (.refined .identifierTooShort)
      else .ok text

/-- A limit as a double.  There are no types with limits beyond all doubles; here such a limit is infinite. -/
def Numeral.limit (n : Numeral) : Double :=
  match n with
  | .integer value => (Double.ofInt? value).getD (.infinite (value < 0))
  | .double value => value

/-- The first bound that a number fails. -/
def Bounds.failure? (bounds : Bounds) (x : Double) : Option Cause :=
  let fails (kind : BoundKind) (limit : Option Numeral) (holds : Double → Bool) : Option Cause :=
    limit.bind fun limit =>
      if holds limit.limit then none else some (.outOfBounds kind limit.limit)
  (fails .atMost bounds.atMost x.isAtMost).or <|
  (fails .below bounds.below x.isLess).or <|
  (fails .atLeast bounds.atLeast (·.isAtMost x)).or <|
  fails .above bounds.above (·.isLess x)

/-- A number that follows a rule, of the rounding of which everything is asked.  It becomes a double, or an
integer where it has to be whole. -/
def NumberRule.check (rule : NumberRule) (n : Numeral) : Except Cause Numeral :=
  match n.toDouble? with
  | none => .error .notNumber
  | some x =>
      match rule.bounds.failure? x with
      | some cause => .error cause
      | none =>
          if rule.nonZero && x.isZero then .error (.refined .numberIsZero)
          else if rule.whole then
            match x.toInt? with
            | some value => .ok (.integer value)
            | none => .error .fractional
          else .ok (.double x)

/-- The text that a value is read as: bytes are decoded. -/
def Value.readText : Value → Except Cause String
  | .text content => .ok content
  | .atom (.bytes content) => (Utf8.decode content).mapError fun _ => .notUnicode
  | _ => .error .notText

/-- A value that is read as a text, which has to follow a rule. -/
def TextRule.read (value : Value) (rule : TextRule) : Except Cause String :=
  value.readText.bind fun content => rule.check content

def TextRule.checkKey (key : Atom) (rule : TextRule) : List Fault :=
  match rule.read (.atom key) with
  | .ok _ => []
  | .error cause => [⟨[.key key, .label "[key]"], cause⟩]

/-- A value without parts against a form; of other values only the kind is looked at. -/
def Value.checkWhole (value : Value) : Form → Outcome
  | .text rule =>
      match rule.read value with
      | .ok checked => .ok (.text checked)
      | .error cause => refuse cause
  | .number rule =>
      match value with
      | .number n =>
          match rule.check n with
          | .ok n => .ok (.number n)
          | .error cause => refuse cause
      | _ => refuse .notNumber
  | .literal choices =>
      match value with
      | .text content => if content ∈ choices then .ok value else refuse (.notChoice choices)
      | _ => refuse (.notChoice choices)
  | .flag =>
      match value with
      | .boolean true => .ok value
      | .number n => if n.isEqual (.integer 1) then .ok (.boolean true) else refuse .notFlag
      | _ => refuse .notFlag
  | .anyJson => .ok value
  | .tuple _ _ => refuse .notTuple
  | .list _ _ _ => refuse .notList
  | .dictionary _ _ => refuse .notDictionary
  | .choice dispatch branches => refuse (dispatch.refusal (branches.map (·.1)) value)
  | .model name =>
      match value with
      | .record model _ => if model = name then .ok value else refuse (.notModel name)
      | _ => refuse (.notModel name)

mutual

/-- What keeps a value from being JSON: times and bytes, and keys that are not read as texts. -/
def Value.jsonFaults : Value → List Fault
  | .atom (.time _) => [⟨[], .notJson⟩]
  | .atom (.bytes _) => [⟨[], .notJson⟩]
  | .atom _ => []
  | .list items =>
      (jsonItemFaults 0 items).map (Fault.under (.label (Value.list items).typeLabel))
  | .mapping entries =>
      (jsonEntryFaults entries).map (Fault.under (.label (Value.mapping entries).typeLabel))
  | .tuple _ => [⟨[], .notJson⟩]
  | .record _ _ => [⟨[], .notJson⟩]

def Value.jsonItemFaults : Nat → List Value → List Fault
  | _, [] => []
  | position, item :: rest =>
      item.jsonFaults.map (Fault.under (.index position)) ++ jsonItemFaults (position + 1) rest

def Value.jsonEntryFaults : List (Atom × Value) → List Fault
  | [] => []
  | (key, value) :: rest =>
      TextRule.any.checkKey key ++ value.jsonFaults.map (Fault.under (.key key)) ++
        jsonEntryFaults rest

end

mutual

/-- A value with texts for keys, as far as they can be read as texts.  Keys that become the same text are not
merged here. -/
def Value.withTextKeys : Value → Value
  | .list items => .list (itemsWithTextKeys items)
  | .mapping entries => .mapping (entriesWithTextKeys entries)
  | other => other

def Value.itemsWithTextKeys : List Value → List Value
  | [] => []
  | item :: rest => item.withTextKeys :: itemsWithTextKeys rest

def Value.entriesWithTextKeys : List (Atom × Value) → List (Atom × Value)
  | [] => []
  | (key, value) :: rest => (key.asText, value.withTextKeys) :: entriesWithTextKeys rest

end

/-- Free JSON is taken as it is, but for keys that are bytes. -/
def Value.checkJson (value : Value) : Outcome :=
  match value.jsonFaults with
  | [] => .ok value.withTextKeys
  | faults => .error faults

/-- What is wrong with a list whose items have to differ.  The items are compared one after the other,
up to the first that holds a number too long to be written. -/
def repetition? (items : List Value) : Option Refinement :=
  match Value.findDuplicates items with
  | .ok false => none
  | .ok true => some .itemsRepeat
  | .error .numberTooLong => some .numberTooLong

/-- A list whose items have been validated.  It is the items as they were given that have to differ. -/
def finishList (raw : List Value) (minLength : Option Nat) (unique : Bool)
    (outcomes : List Outcome) : Outcome :=
  match collect (atPositions 0 outcomes) with
  | .error faults => .error faults
  | .ok items =>
      let least := minLength.getD 0
      if items.length < least then refuse (.tooFewItems least items.length)
      else
        match if unique then repetition? raw else none with
        | some refinement => refuse (.refined refinement)
        | none => .ok (.list items)

/-- Whether the first two items are equal numbers. -/
def startsWithEqualNumbers : List Value → Bool
  | .number a :: .number b :: _ => a.isEqual b
  | _ => false

/-- A tuple whose items have been validated; of missing ones the outcomes have faults. -/
def finishTuple (size actual : Nat) (distinct : Bool) (outcomes : List Outcome) : Outcome :=
  if size < actual then refuse (.tooManyItems size actual)
  else
    match collect (atPositions 0 outcomes) with
    | .error faults => .error faults
    | .ok items =>
        if distinct && startsWithEqualNumbers items then refuse (.refined .rangeIsPoint)
        else .ok (.tuple items)

/-- Fields validated so far: the faults found, and the fields that are in order. -/
structure Gathered where
  faults : List Fault := []
  fields : List (String × Value) := []

/-- Whether a field is given together with one that it excludes and that is in order. -/
def Field.isExcluded (field : Field) (fields : List (String × Value)) : Bool :=
  field.excludes.any fun other => (fields.lookup other).isSome

/-- The next field of a model, in its order. -/
def Gathered.add (checked : List (Atom × Option Outcome)) (gathered : Gathered) (field : Field) :
    Gathered :=
  match (lookupText field.name checked).join with
  | none =>
      if field.required then
        { gathered with
          faults := gathered.faults ++ [⟨[.key (.text field.name)], .missing⟩] }
      else gathered
  | some (.ok value) =>
      if field.isExcluded gathered.fields then
        { gathered with
          faults := gathered.faults ++
            [⟨[.key (.text field.name)], .refined (.excluded field.name field.excludes)⟩] }
      else { gathered with fields := gathered.fields ++ [(field.name, value)] }
  | some (.error faults) =>
      { gathered with
        faults := gathered.faults ++ faults.map (Fault.under (.key (.text field.name))) }

/-- The faults of keys that a closed model does not know. -/
def Definition.unknownKeys (definition : Definition) (keys : List Atom) : List Fault :=
  if definition.closed then
    keys.filterMap fun key =>
      match key with
      | .text name =>
          if (definition.field? name).isSome then none else some ⟨[.key key], .unknownKey⟩
      | _ => some ⟨[.key key], .keyNotText⟩
  else []

def numberField? (name : String) (fields : List (String × Value)) : Option Numeral :=
  match fields.lookup name with
  | some (.number n) => some n
  | _ => none

/-- The condition that an object fails, if it fails one. -/
def ModelRule.failure? (fields : List (String × Value)) : ModelRule → Option Refinement
  | someKey => if fields.isEmpty then some .objectIsEmpty else none
  | someDimension =>
      if (fields.lookup "x").isNone && (fields.lookup "y").isNone then some .dimensionMissing
      else none
  | orderedDelays =>
      match numberField? "delayMax" fields, numberField? "delayMin" fields with
      | some _, none => some .delayMinMissing
      | some (.double most), some (.double least) =>
          if most.isAtMost least then some .delaysUnordered else none
      | _, _ => none

/-- An object whose entries have been validated, put together in the order of its model.  The conditions on
the object as a whole are looked at when nothing else is wrong. -/
def ModelName.assemble (name : ModelName) (checked : List (Atom × Option Outcome)) : Outcome :=
  let definition := name.definition
  let gathered := definition.fields.foldl (Gathered.add checked) {}
  let faults := gathered.faults ++ definition.unknownKeys (checked.map (·.1))
  if faults.isEmpty then
    match definition.rules.findSome? (ModelRule.failure? gathered.fields) with
    | some refinement => refuse (.refined refinement)
    | none => .ok (.record name gathered.fields)
  else .error faults

/-- The entries of a dictionary that have been validated, with texts for keys.  Keys that become the same text
are not merged here. -/
def finishDictionary (key : TextRule) :
    List (Atom × Outcome) → Except (List Fault) (List (Atom × Value))
  | [] => .ok []
  | (name, outcome) :: rest =>
      let faults := key.checkKey name ++ (under (.key name) outcome).faults
      match outcome, finishDictionary key rest with
      | .ok value, .ok entries =>
          if faults.isEmpty then .ok ((name.asText, value) :: entries) else .error faults
      | .error _, .ok _ => .error faults
      | _, .error later => .error (faults ++ later)

def Definition.formOf? (definition : Definition) : Atom → Option Form
  | .text name => (definition.field? name).map (·.form)
  | _ => none

/-- Go on with the form that a value settles on. -/
def Form.withSettled (form : Form) (value : Value) (go : Form → Outcome) : Outcome :=
  let settled := form.settle value
  underLabels settled.labels <|
    match settled.form with
    | .error cause => refuse cause
    | .ok inner => go inner

mutual

/-- Validate a value. -/
def Value.check : Value → Form → Outcome
  | .atom a, form => form.withSettled (.atom a) fun
      | .anyJson => (Value.atom a).checkJson
      | form => (Value.atom a).checkWhole form
  | .list items, form => form.withSettled (.list items) fun
      | .list item minLength unique => finishList items minLength unique (checkEach items item)
      | .tuple positions distinct =>
          finishTuple positions.length items.length distinct (checkPositions items positions)
      | .anyJson => (Value.list items).checkJson
      | form => (Value.list items).checkWhole form
  | .tuple items, form => form.withSettled (.tuple items) fun
      | .list item minLength unique => finishList items minLength unique (checkEach items item)
      | .tuple positions distinct =>
          finishTuple positions.length items.length distinct (checkPositions items positions)
      | .anyJson => (Value.tuple items).checkJson
      | form => (Value.tuple items).checkWhole form
  | .mapping entries, form => form.withSettled (.mapping entries) fun
      | .model name => name.assemble (checkEntries entries name.definition)
      | .dictionary key item =>
          (finishDictionary key (checkValues entries item)).map .mapping
      | .anyJson => (Value.mapping entries).checkJson
      | form => (Value.mapping entries).checkWhole form
  | .record model fields, form => form.withSettled (.record model fields) fun
      | .anyJson => (Value.record model fields).checkJson
      | form => (Value.record model fields).checkWhole form

/-- Validate every item against one form. -/
def Value.checkEach : List Value → Form → List Outcome
  | [], _ => []
  | item :: rest, form => item.check form :: checkEach rest form

/-- Validate every item against the form of its position. -/
def Value.checkPositions : List Value → List Form → List Outcome
  | [], positions => positions.map fun _ => refuse .missing
  | _ :: _, [] => []
  | item :: rest, form :: positions => item.check form :: checkPositions rest positions

/-- Validate the entries of an object whose keys a model knows. -/
def Value.checkEntries : List (Atom × Value) → Definition → List (Atom × Option Outcome)
  | [], _ => []
  | (key, value) :: rest, definition =>
      (key, match definition.formOf? key with
        | none => none
        | some form => some (value.check form)) :: checkEntries rest definition

/-- Validate all entries against one form. -/
def Value.checkValues : List (Atom × Value) → Form → List (Atom × Outcome)
  | [], _ => []
  | (key, value) :: rest, form => (key, value.check form) :: checkValues rest form

end

end AnimationGrammar
