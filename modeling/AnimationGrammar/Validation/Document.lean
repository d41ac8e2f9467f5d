import AnimationGrammar.Validation.Issue

/-!
Validation of a whole document.

Every key is validated by itself, against the narrowest form that applies to it, so a mistake under
one key is reported precisely and hides nothing under another.  `validate` collects the issues of all
keys.  `validateWith` also runs consistency checks on the entries of every key whose entries are in
order, and records the calls that it makes.
-/

namespace AnimationGrammar

/-- The issue of a document that is no object. -/
def notObjectIssue (document : Value) : Issue where
  kind := .invalidType
  path := []
  message := "JSON must represent an object, received " ++ received ++ "."
where
  received : String :=
    match document with
    | .atom (.time time) => time.typeName
    | .atom (.bytes _) => "bytes"
    | other => (other.kind?.map Kind.label).getD ""

def keyIssues (key : Atom) : List Issue :=
  match (Value.atom key).check .rollOption with
  | .ok _ => []
  | .error _ => [⟨.invalidString, [key], "Must be a valid roll option."⟩]

/-- The form of the value under a roll option: a text is an alias. -/
def entryForm : Value → Form
  | .text _ => .rollOption
  | _ => .animationObjects

def valueIssues (key : Atom) (value : Value) : List Issue :=
  issuesAt [key] value (value.check (entryForm value)).faults

/-- The issues of one key that is no key for token images. -/
def entryIssues (key : Atom) (value : Value) : List Issue :=
  keyIssues key ++ valueIssues key value

/-- The issues of the token images, with paths from the document on. -/
def tokenImageIssues (entries : List (Atom × Value)) : List Issue :=
  let document := Value.mapping entries
  issuesAt [] document (document.check (.model .tokenImages)).faults

/-- The issues of one key of a document. -/
def blockIssues (entries : List (Atom × Value)) (entry : Atom × Value) : List Issue :=
  if entry.1 = .text tokenImagesKey then tokenImageIssues entries
  else entryIssues entry.1 entry.2

/-- All issues of a document; there are none exactly when it is valid. -/
def validate : Value → List Issue
  | .mapping entries => entries.flatMap (blockIssues entries)
  | document => [notObjectIssue document]

/-- A check on the entries of one key: it reports issues in them, or breaks off. -/
abbrev ConsistencyCheck (ε : Type) := List Value → Except ε (List Issue)

/-- A validation with checks: the calls made, by the number of the check, and how it ended. -/
structure CheckedRun (ε : Type) where
  calls : List (Nat × List Value)
  result : Except ε (List Issue)

namespace CheckedRun

variable {ε : Type}

/-- A run that made no calls. -/
def report (issues : List Issue) : CheckedRun ε := ⟨[], .ok issues⟩

/-- One run after another; nothing follows a run that broke off. -/
def andThen (first second : CheckedRun ε) : CheckedRun ε :=
  match first.result with
  | .error failure => ⟨first.calls, .error failure⟩
  | .ok issues => ⟨first.calls ++ second.calls, second.result.map (issues ++ ·)⟩

end CheckedRun

variable {ε : Type}

/-- The checks in their order, on the entries of one key. -/
def runChecks (entries : List Value) : Nat → List (ConsistencyCheck ε) → CheckedRun ε
  | _, [] => .report []
  | number, check :: rest =>
      CheckedRun.andThen ⟨[(number, entries)], check entries⟩ (runChecks entries (number + 1) rest)

/-- The entries that checks may look at: those of a list in which every entry is in order. -/
def checkableEntries? (value : Value) : Option (List Value) :=
  match value with
  | .text _ => none
  | other =>
      match other.check .animationObjects with
      | .ok _ => other.items?
      | .error _ => none

def runBlock (checks : List (ConsistencyCheck ε)) (entries : List (Atom × Value))
    (entry : Atom × Value) : CheckedRun ε :=
  let issues : CheckedRun ε := .report (blockIssues entries entry)
  if entry.1 = .text tokenImagesKey then issues
  else
    match checkableEntries? entry.2 with
    | none => issues
    | some items =>
        let found := runChecks items 0 checks
        issues.andThen ⟨found.calls, found.result.map (·.map (Issue.below [entry.1]))⟩

def validateWith (checks : List (ConsistencyCheck ε)) : Value → CheckedRun ε
  | .mapping entries =>
      (entries.map (runBlock checks entries)).foldr CheckedRun.andThen (.report [])
  | document => .report [notObjectIssue document]

end AnimationGrammar
