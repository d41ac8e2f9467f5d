import AnimationGrammar.Validation.Path

/-!
Issues: faults in the form in which they are reported, with a kind, a path and a message.
-/

namespace AnimationGrammar

/-- What kind of mistake an issue is about. -/
inductive IssueKind
  | invalidType
  | invalidLiteral
  | invalidString
  | unrecognizedKeys
  | invalidUnion
  | tooSmall
  | tooBig
  | custom
  deriving DecidableEq

namespace IssueKind

def label : IssueKind → String
  | invalidType => "invalid_type"
  | invalidLiteral => "invalid_literal"
  | invalidString => "invalid_string"
  | unrecognizedKeys => "unrecognized_keys"
  | invalidUnion => "invalid_union"
  | tooSmall => "too_small"
  | tooBig => "too_big"
  | custom => "custom"

def all : List IssueKind :=
  [invalidType, invalidLiteral, invalidString, unrecognizedKeys, invalidUnion, tooSmall, tooBig,
   custom]

def ofLabel? (label : String) : Option IssueKind := all.find? (·.label == label)

end IssueKind

/-- A mistake in a document. -/
structure Issue where
  kind : IssueKind
  path : Path
  message : String
  deriving DecidableEq

namespace Cause

def issueKind : Cause → IssueKind
  | missing | wrongKind _ | fractional | notModel _ | notFilterObject | notDictionary | notList
  | notTuple | notText | notNumber => .invalidType
  | notChoice _ | notFlag => .invalidLiteral
  | badFormat _ => .invalidString
  | unknownKey => .unrecognizedKeys
  | noOperator | filterTypeUnknown _ _ | filterTypeMissing => .invalidUnion
  | tooFewItems _ _ | badTupleLength | textEmpty => .tooSmall
  | tooManyItems _ _ => .tooBig
  | outOfBounds .above _ | outOfBounds .atLeast _ => .tooSmall
  | outOfBounds .below _ | outOfBounds .atMost _ => .tooBig
  | refined _ | keyNotText | notUnicode | notJson => .custom

/-- What an issue says about a cause. -/
def issueMessage : Cause → String
  | refined refinement => refinement.message
  | missing => "Required"
  | cause => cause.message

end Cause

def Fault.issue (value : Value) (fault : Fault) : Issue where
  kind := fault.cause.issueKind
  path := retrace (fault.cause = .missing) fault.items value
  message := fault.cause.issueMessage

/-- The issue as seen from further out. -/
def Issue.below (outer : Path) (issue : Issue) : Issue :=
  { issue with path := outer ++ issue.path }

/-- The issues of a value that lies at a path of its document. -/
def issuesAt (outer : Path) (value : Value) (faults : List Fault) : List Issue :=
  faults.map fun fault => (fault.issue value).below outer

end AnimationGrammar
