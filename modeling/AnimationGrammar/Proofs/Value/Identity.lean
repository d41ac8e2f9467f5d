import AnimationGrammar.Value.Basic
import Mathlib.Tactic.Common

/-!
Values that are one and the same.

Whether two values are built alike, down to every atom and to the order of keys, can be decided.  This is
finer than `Value.isEqual`, under which numbers count by what they are worth.
-/

namespace AnimationGrammar

namespace Value

mutual

def isIdentical : Value → Value → Bool
  | .atom a, .atom b => a = b
  | .list xs, .list ys => areIdentical xs ys
  | .tuple xs, .tuple ys => areIdentical xs ys
  | .mapping xs, .mapping ys => areIdenticalEntries xs ys
  | .record model xs, .record other ys => model = other && areIdenticalFields xs ys
  | _, _ => false

def areIdentical : List Value → List Value → Bool
  | [], [] => true
  | x :: xs, y :: ys => x.isIdentical y && areIdentical xs ys
  | _, _ => false

def areIdenticalEntries : List (Atom × Value) → List (Atom × Value) → Bool
  | [], [] => true
  | (key, x) :: xs, (other, y) :: ys => key = other && x.isIdentical y && areIdenticalEntries xs ys
  | _, _ => false

def areIdenticalFields : List (String × Value) → List (String × Value) → Bool
  | [], [] => true
  | (name, x) :: xs, (other, y) :: ys => name = other && x.isIdentical y && areIdenticalFields xs ys
  | _, _ => false

end

mutual

theorem isIdentical_iff : ∀ a b : Value, a.isIdentical b = true ↔ a = b
  | .atom a, b => by cases b <;> simp [isIdentical]
  | .list xs, b => by cases b <;> simp [isIdentical, areIdentical_iff xs]
  | .tuple xs, b => by cases b <;> simp [isIdentical, areIdentical_iff xs]
  | .mapping xs, b => by cases b <;> simp [isIdentical, areIdenticalEntries_iff xs]
  | .record model xs, b => by cases b <;> simp [isIdentical, areIdenticalFields_iff xs]

theorem areIdentical_iff : ∀ xs ys : List Value, areIdentical xs ys = true ↔ xs = ys
  | [], ys => by cases ys <;> simp [areIdentical]
  | x :: xs, ys => by cases ys <;> simp [areIdentical, isIdentical_iff x, areIdentical_iff xs]

theorem areIdenticalEntries_iff :
    ∀ xs ys : List (Atom × Value), areIdenticalEntries xs ys = true ↔ xs = ys
  | [], ys => by cases ys <;> simp [areIdenticalEntries]
  | (key, x) :: xs, [] => by simp [areIdenticalEntries]
  | (key, x) :: xs, (other, y) :: ys => by
      simp [areIdenticalEntries, isIdentical_iff x, areIdenticalEntries_iff xs]

theorem areIdenticalFields_iff :
    ∀ xs ys : List (String × Value), areIdenticalFields xs ys = true ↔ xs = ys
  | [], ys => by cases ys <;> simp [areIdenticalFields]
  | (name, x) :: xs, [] => by simp [areIdenticalFields]
  | (name, x) :: xs, (other, y) :: ys => by
      simp [areIdenticalFields, isIdentical_iff x, areIdenticalFields_iff xs]

end

instance : DecidableEq Value := fun a b => decidable_of_iff _ (isIdentical_iff a b)

end Value

/-- Whether a document was read from a text, whatever the errors of its reader are. -/
instance {ε : Type} (read : Except ε Value) (document : Value) : Decidable (read = .ok document) :=
  match read with
  | .ok value => decidable_of_iff (value = document) (by simp)
  | .error _ => .isFalse nofun

end AnimationGrammar
