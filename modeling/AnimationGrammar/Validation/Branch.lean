import AnimationGrammar.Grammar.Model
import AnimationGrammar.Validation.Fault

/-!
Unions: which branch a value is validated by.

A value has at most one label for each way of dispatching, and only the branch under that label is
ever tried, so a value is measured by the variant that it claims to be.
-/

namespace AnimationGrammar

namespace Dispatch

def label? : Dispatch → Value → Option String
  | kind, value => value.kind?.map Kind.label
  | operator, value => predicateLabel? value
  | type, value =>
      match value.get? "type" with
      | some (.text tag) => some tag
      | _ => none
  | length, value => value.items?.map fun items => integerText items.length

/-- What is wrong with a value that none of the branches takes. -/
def refusal (labels : List String) (value : Value) : Dispatch → Cause
  | kind => .wrongKind labels
  | operator => .noOperator
  | length => .badTupleLength
  | type =>
      match value with
      | .mapping _ | .record _ _ =>
          match value.get? "type" with
          | none => .filterTypeMissing
          | some tag => .filterTypeUnknown tag.display labels
      | _ => .notFilterObject

end Dispatch

/-- Where a value ends up in nested unions: the labels entered, and the form that is no union. -/
structure Settled where
  labels : List String
  form : Except Cause Form

namespace Form

mutual

/-- Enter branches until a form that is no union is reached. -/
def settle (value : Value) : Form → Settled
  | .choice dispatch branches =>
      match dispatch.label? value with
      | none => ⟨[], .error (dispatch.refusal (branches.map (·.1)) value)⟩
      | some label =>
          (settleBranch value label branches).getD
            ⟨[], .error (dispatch.refusal (branches.map (·.1)) value)⟩
  | form => ⟨[], .ok form⟩

def settleBranch (value : Value) (label : String) : List (String × Form) → Option Settled
  | [] => none
  | (name, form) :: rest =>
      if name = label then
        let inner := settle value form
        some ⟨name :: inner.labels, inner.form⟩
      else settleBranch value label rest

end

end Form

end AnimationGrammar
