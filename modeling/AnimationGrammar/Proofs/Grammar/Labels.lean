import AnimationGrammar.Proofs.Grammar.Admission
import AnimationGrammar.Proofs.Value.Similar

/-!
Branches bear their labels.

A value that fits a branch of a regular union shows the label of the branch: by its kind, by a key that
is an operator, by the text under the key `type`, or by the number of its items.  So values that are
similar enter the same branch, whatever the order of their keys.
-/

namespace AnimationGrammar

open Value Form

/-- Every key of a predicate names its operator, and one of them has to be given. -/
theorem operator_fields : ∀ name ∈ predicateModels, name.definition.closed = true ∧
    (name.definition.fields.any (·.required)) = true ∧
      ∀ fieldName ∈ name.definition.fieldNames, predicateOperators.lookup fieldName = some name := by
  decide +kernel

theorem filterType_field {label : String} {name : ModelName} (filter : (label, name) ∈ filterModels) :
    filterTypeField label ∈ name.definition.fields := by
  simp only [filterModels, List.mem_cons, List.not_mem_nil, or_false, Prod.mk.injEq] at filter
  rcases filter with ⟨rfl, rfl⟩ | ⟨rfl, rfl⟩ | ⟨rfl, rfl⟩ | ⟨rfl, rfl⟩ | ⟨rfl, rfl⟩
  all_goals exact List.mem_cons_self

/-- An object with nothing but keys of one predicate claims to be that predicate. -/
theorem operatorModel?_of_known {name : ModelName} (predicate : name ∈ predicateModels)
    {entries : List (Atom × Value)} (given : entries ≠ [])
    (known : ∀ entry ∈ entries, ∃ fieldName ∈ name.definition.fieldNames,
      entry.1 = .text fieldName) : operatorModel? entries = some name := by
  cases entries with
  | nil => exact absurd rfl given
  | cons entry rest =>
      rcases entry with ⟨key, value⟩
      obtain ⟨fieldName, declared, rfl⟩ := known (key, value) List.mem_cons_self
      rw [operatorModel?, (operator_fields name predicate).2.2 fieldName declared]
      rfl

theorem predicate_given {reading : Reading} {name : ModelName} (predicate : name ∈ predicateModels)
    {entries : List (Atom × Value)} (fits : name.definition.Fits reading entries) :
    entries ≠ [] := by
  rintro rfl
  have required := (operator_fields name predicate).2.1
  rw [List.any_eq_true] at required
  obtain ⟨field, membership, needed⟩ := required
  have given := fits.given field membership needed
  simp [IsGiven, lookupText] at given

theorem operatorModel?_of_fits {reading : Reading} {name : ModelName}
    (predicate : name ∈ predicateModels) {entries : List (Atom × Value)}
    (fits : name.definition.Fits reading entries) : operatorModel? entries = some name :=
  operatorModel?_of_known predicate (predicate_given predicate fits)
    (fits.known (operator_fields name predicate).1)

theorem kind?_of_fits {reading : Reading} {form : Form} {kind : Kind} {value : Value}
    (kinds : form.kindOf? = some kind) (flags : ∀ value, reading.flag value → ∃ b, value = .boolean b)
    (fits : form.Fits reading value) : value.kind? = some kind := by
  cases form with
  | text rule =>
      obtain ⟨content, rfl, _⟩ := fits
      exact kinds
  | number rule =>
      obtain ⟨n, rfl, _⟩ := fits
      exact kinds
  | literal choices =>
      obtain ⟨content, _, rfl⟩ := fits
      exact kinds
  | flag =>
      obtain ⟨b, rfl⟩ := flags value fits
      exact kinds
  | anyJson => simp [kindOf?] at kinds
  | tuple positions distinct =>
      obtain ⟨items, rfl, _⟩ := fits
      exact kinds
  | list item minLength unique =>
      obtain ⟨items, rfl, _⟩ := fits
      exact kinds
  | dictionary key item =>
      obtain ⟨entries, rfl, _⟩ := fits
      exact kinds
  | choice dispatch branches => exact fits.elim
  | model name =>
      obtain ⟨entries, rfl, _⟩ := fits
      exact kinds

/-! ### Similar values -/

namespace Value

variable {a b : Value}

theorem Similar.kind?_eq (similar : Similar a b) : a.kind? = b.kind? := by
  cases similar <;> rfl

theorem Similar.get?_text {name content : String} (similar : Similar a b)
    (found : a.get? name = some (.text content)) : b.get? name = some (.text content) := by
  cases similar with
  | object sameKeys each =>
      rw [get?] at found ⊢
      have given := sameKeys name
      rw [found, Option.isSome_some, eq_comm, Option.isSome_iff_exists] at given
      obtain ⟨y, inYs⟩ := given
      cases each name _ _ found inYs
      exact inYs
  | _ => simp [get?] at found

theorem known_of_sameKeys {xs ys : List (Atom × Value)} (second : (Value.mapping ys).IsJson)
    (sameKeys : ∀ name, (lookupText name xs).isSome = (lookupText name ys).isSome)
    {names : List String} (known : ∀ entry ∈ xs, ∃ name ∈ names, entry.1 = .text name) :
    ∀ entry ∈ ys, ∃ name ∈ names, entry.1 = .text name := by
  intro entry membership
  obtain ⟨name, named⟩ := second.key membership
  rcases entry with ⟨key, value⟩
  obtain rfl : key = .text name := named
  have given : (lookupText name xs).isSome = true := by
    rw [sameKeys, (lookupText_eq_some_iff second.keysDiffer).mpr membership, Option.isSome_some]
  obtain ⟨other, looked⟩ := Option.isSome_iff_exists.mp given
  obtain ⟨fieldName, declared, same⟩ := known _ (lookupText_eq_some_mem looked)
  rw [Atom.text.injEq] at same
  exact ⟨name, same ▸ declared, rfl⟩

theorem ne_nil_of_sameKeys {xs ys : List (Atom × Value)} (first : (Value.mapping xs).IsJson)
    (sameKeys : ∀ name, (lookupText name xs).isSome = (lookupText name ys).isSome)
    (given : xs ≠ []) : ys ≠ [] := by
  obtain ⟨⟨key, value⟩, rest, rfl⟩ := List.exists_cons_of_ne_nil given
  obtain ⟨name, rfl⟩ := first.key List.mem_cons_self
  rintro rfl
  have missing := sameKeys name
  simp [lookupText] at missing

end Value

/-- A value similar to one that a branch takes bears the label of the branch. -/
theorem Dispatch.label?_of_similar {reading : Reading} {dispatch : Dispatch} {label : String}
    {form : Form} {a b : Value} (suits : dispatch.Suits label form)
    (admits : Admits reading form a) (found : dispatch.label? a = some label)
    (similar : Similar a b) (first : a.IsJson) (second : b.IsJson) :
    dispatch.label? b = some label := by
  cases suits with
  | kind => rwa [label?, ← similar.kind?_eq]
  | @predicate name predicate =>
      obtain ⟨⟨xs, rfl, fits⟩, _⟩ := (admits_whole_iff rfl).mp admits
      cases similar with
      | object sameKeys each =>
          have known := fits.known (operator_fields name predicate).1
          have operator := operatorModel?_of_known predicate
            (ne_nil_of_sameKeys first sameKeys (predicate_given predicate fits))
            (known_of_sameKeys second sameKeys known)
          rw [label?, predicateLabel?, operator, Option.map_some]
  | rollOption =>
      obtain ⟨⟨content, rfl, _⟩, _⟩ := (admits_whole_iff rfl).mp admits
      cases similar
      exact found
  | filter =>
      rw [label?] at found ⊢
      split at found
      next tag given => rwa [similar.get?_text given]
      next => simp at found
  | length =>
      cases similar with
      | list sameLength _ =>
          rw [label?, items?, Option.map_some] at found ⊢
          rw [← sameLength, found]
      | _ => simp [label?, items?] at found

end AnimationGrammar
