import AnimationGrammar.Proofs.Value.Json
import AnimationGrammar.Proofs.Value.Related
import Mathlib.Data.List.Perm.Subperm

/-!
Equality of JSON values.

Two JSON values are similar when they are the same but for the order of keys and the spelling of
numbers.  Booleans are no numbers here.  `Value.Similar` says so kind by kind, and `Value.isSimilar`
decides it.
-/

namespace AnimationGrammar

/-- Whether two atoms are the same JSON value: numbers compare by value. -/
def Atom.isSimilar : Atom → Atom → Bool
  | .number a, .number b => a.isEqual b
  | a, b => a = b

namespace Value

mutual

/-- Whether two values are the same JSON value. -/
def isSimilar : Value → Value → Bool
  | .atom a, .atom b => a.isSimilar b
  | .list xs, .list ys => areSimilar xs ys
  | .mapping xs, .mapping ys => xs.length == ys.length && areFoundIn ys xs
  | _, _ => false

def areSimilar : List Value → List Value → Bool
  | [], [] => true
  | x :: xs, y :: ys => x.isSimilar y && areSimilar xs ys
  | _, _ => false

def areFoundIn (others : List (Atom × Value)) : List (Atom × Value) → Bool
  | [] => true
  | (key, x) :: xs =>
      (match others.lookup key with
        | some y => x.isSimilar y
        | none => false) && areFoundIn others xs

end

theorem areSimilar_iff {xs ys : List Value} :
    areSimilar xs ys = true ↔ List.Forall₂ (fun x y => x.isSimilar y = true) xs ys := by
  induction xs generalizing ys with
  | nil => cases ys <;> simp [areSimilar]
  | cons x xs inductionHypothesis => cases ys <;> simp [areSimilar, inductionHypothesis]

theorem areFoundIn_iff {others entries : List (Atom × Value)} :
    areFoundIn others entries = true ↔ ∀ entry ∈ entries, ∃ like,
      others.lookup entry.1 = some like ∧ entry.2.isSimilar like = true := by
  induction entries with
  | nil => simp [areFoundIn]
  | cons entry rest inductionHypothesis =>
      rcases entry with ⟨key, value⟩
      simp only [areFoundIn, Bool.and_eq_true, inductionHypothesis, List.forall_mem_cons]
      refine and_congr_left fun _ => ?_
      cases others.lookup key <;> simp

/-- Two values are similar: numbers are equal, lists are similar item by item, and objects have the same
keys with similar values. -/
inductive Similar : Value → Value → Prop
  | null : Similar .null .null
  | boolean (value : Bool) : Similar (.boolean value) (.boolean value)
  | number {a b : Numeral} : a.isEqual b = true → Similar (.number a) (.number b)
  | text (content : String) : Similar (.text content) (.text content)
  | list {xs ys : List Value} : xs.length = ys.length →
      (∀ pair ∈ xs.zip ys, Similar pair.1 pair.2) → Similar (.list xs) (.list ys)
  | object {xs ys : List (Atom × Value)} :
      (∀ name, (lookupText name xs).isSome = (lookupText name ys).isSome) →
      (∀ name x y, lookupText name xs = some x → lookupText name ys = some y → Similar x y) →
      Similar (.mapping xs) (.mapping ys)

/-! ### Keys -/

theorem isSome_lookupText_iff {α : Type} {name : String} {entries : List (Atom × α)} :
    (lookupText name entries).isSome = true ↔ Atom.text name ∈ entries.map Prod.fst := by
  rw [Option.isSome_iff_ne_none, Ne, lookupText_eq_none_iff, List.mem_map]
  push Not
  rfl

section
variable {xs ys : List (Atom × Value)}

/-- Of two objects with as many keys, the second has no other keys than the first if it has those. -/
theorem sameKeys_of_length (first : (Value.mapping xs).IsJson)
    (sameLength : xs.length = ys.length) (found : xs.map Prod.fst ⊆ ys.map Prod.fst)
    (name : String) : (lookupText name xs).isSome = (lookupText name ys).isSome := by
  have perm : (xs.map Prod.fst).Perm (ys.map Prod.fst) := by
    apply (List.subperm_of_subset first.keysDiffer found).perm_of_length_le
    rw [List.length_map, List.length_map, sameLength]
  rw [Bool.eq_iff_iff, isSome_lookupText_iff, isSome_lookupText_iff, perm.mem_iff]

theorem length_eq_of_sameKeys (first : (Value.mapping xs).IsJson) (second : (Value.mapping ys).IsJson)
    (sameKeys : ∀ name, (lookupText name xs).isSome = (lookupText name ys).isSome) :
    xs.length = ys.length := by
  have mem_iff (name : String) :
      Atom.text name ∈ xs.map Prod.fst ↔ Atom.text name ∈ ys.map Prod.fst := by
    rw [← isSome_lookupText_iff, ← isSome_lookupText_iff, sameKeys]
  have perm : (xs.map Prod.fst).Perm (ys.map Prod.fst) := by
    rw [List.perm_ext_iff_of_nodup first.keysDiffer second.keysDiffer]
    intro key
    constructor
    · intro inXs
      obtain ⟨entry, membership, rfl⟩ := List.mem_map.mp inXs
      obtain ⟨name, named⟩ := first.key membership
      rw [named] at inXs ⊢
      exact (mem_iff name).mp inXs
    · intro inYs
      obtain ⟨entry, membership, rfl⟩ := List.mem_map.mp inYs
      obtain ⟨name, named⟩ := second.key membership
      rw [named] at inYs ⊢
      exact (mem_iff name).mpr inYs
  simpa using perm.length_eq

end

theorem atom_isSimilar_iff {a b : Atom} (first : (Value.atom a).IsJson) :
    a.isSimilar b = true ↔ Similar (.atom a) (.atom b) := by
  constructor
  · intro similar
    cases a with
    | null =>
        obtain rfl : Atom.null = b := by simpa [Atom.isSimilar] using similar
        exact .null
    | boolean value =>
        obtain rfl : Atom.boolean value = b := by simpa [Atom.isSimilar] using similar
        exact .boolean value
    | number n =>
        cases b with
        | number m => exact .number similar
        | _ => simp [Atom.isSimilar] at similar
    | text content =>
        obtain rfl : Atom.text content = b := by simpa [Atom.isSimilar] using similar
        exact .text content
    | time moment => exact absurd first.node id
    | bytes content => exact absurd first.node id
  · intro similar
    cases similar with
    | null => rfl
    | boolean value => simp [Atom.isSimilar]
    | number equal => exact equal
    | text content => simp [Atom.isSimilar]

theorem list_isSimilar_iff {xs ys : List Value}
    (pair : ∀ {x y}, (x, y) ∈ xs.zip ys → (x.isSimilar y = true ↔ Similar x y)) :
    (Value.list xs).isSimilar (.list ys) = true ↔ Similar (.list xs) (.list ys) := by
  rw [isSimilar, areSimilar_iff, List.forall₂_iff_zip]
  constructor
  · rintro ⟨sameLength, each⟩
    exact .list sameLength fun _ paired => (pair paired).mp (each paired)
  · intro similar
    cases similar with
    | list sameLength each => exact ⟨sameLength, fun paired => (pair paired).mpr (each _ paired)⟩

theorem mapping_isSimilar_iff {xs ys : List (Atom × Value)} (first : (Value.mapping xs).IsJson)
    (second : (Value.mapping ys).IsJson)
    (pair : ∀ {name x y}, lookupText name xs = some x → lookupText name ys = some y →
      (x.isSimilar y = true ↔ Similar x y)) :
    (Value.mapping xs).isSimilar (.mapping ys) = true ↔ Similar (.mapping xs) (.mapping ys) := by
  rw [isSimilar, Bool.and_eq_true, beq_iff_eq, areFoundIn_iff]
  constructor
  · rintro ⟨sameLength, each⟩
    have found : xs.map Prod.fst ⊆ ys.map Prod.fst := by
      intro key inKeys
      obtain ⟨entry, inXs, rfl⟩ := List.mem_map.mp inKeys
      obtain ⟨like, looked, _⟩ := each entry inXs
      exact List.mem_map.mpr ⟨_, lookup_eq_some_mem looked, rfl⟩
    refine .object (sameKeys_of_length first sameLength found) fun name x y inXs inYs => ?_
    obtain ⟨like, looked, similar⟩ := each _ (lookupText_eq_some_mem inXs)
    have inYsToo := (lookupText_eq_some_iff second.keysDiffer).mpr (lookup_eq_some_mem looked)
    rw [inYs, Option.some.injEq] at inYsToo
    exact (pair inXs inYs).mp (inYsToo ▸ similar)
  · intro similar
    cases similar with
    | object sameKeys each =>
        refine ⟨length_eq_of_sameKeys first second sameKeys, fun entry membership => ?_⟩
        rcases entry with ⟨key, x⟩
        obtain ⟨name, rfl⟩ := first.key membership
        have inXs := (lookupText_eq_some_iff first.keysDiffer).mpr membership
        have given : (lookupText name ys).isSome = true := by
          rw [← sameKeys, inXs, Option.isSome_some]
        obtain ⟨y, inYs⟩ := Option.isSome_iff_exists.mp given
        refine ⟨y, ?_, (pair inXs inYs).mpr (each name x y inXs inYs)⟩
        exact (lookup_eq_some_iff_mem second.keysDiffer).mpr (lookupText_eq_some_mem inYs)

theorem IsJson.isSimilar_iff {a b : Value} (first : a.IsJson) (second : b.IsJson) :
    a.isSimilar b = true ↔ Similar a b := by
  induction a, first using jsonInduction generalizing b with
  | atom a first =>
      cases b with
      | atom b => exact atom_isSimilar_iff first
      | _ => exact ⟨fun similar => by simp [isSimilar] at similar, fun similar => nomatch similar⟩
  | list xs first inductionHypothesis =>
      cases b with
      | list ys =>
          refine list_isSimilar_iff fun paired => ?_
          obtain ⟨inXs, inYs⟩ := List.of_mem_zip paired
          exact inductionHypothesis _ inXs (second.item inYs)
      | _ => exact ⟨fun similar => by simp [isSimilar] at similar, fun similar => nomatch similar⟩
  | mapping xs first inductionHypothesis =>
      cases b with
      | mapping ys =>
          refine mapping_isSimilar_iff first second fun inXs inYs => ?_
          exact inductionHypothesis _ (lookupText_eq_some_mem inXs)
            (second.entry (lookupText_eq_some_mem inYs))
      | _ => exact ⟨fun similar => by simp [isSimilar] at similar, fun similar => nomatch similar⟩

end Value

end AnimationGrammar
