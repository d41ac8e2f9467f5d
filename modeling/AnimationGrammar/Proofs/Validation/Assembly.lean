import AnimationGrammar.Proofs.Validation.Outcome

/-!
Objects of a model: how the outcomes of the entries are put together, field by field.
-/

namespace AnimationGrammar

open Outcome Value

theorem Definition.mem_fieldNames {definition : Definition} {field : Field}
    (membership : field ∈ definition.fields) : field.name ∈ definition.fieldNames :=
  List.mem_map.mpr ⟨field, membership, rfl⟩

theorem Definition.field?_isSome_iff {definition : Definition} {name : String} :
    (definition.field? name).isSome = true ↔ name ∈ definition.fieldNames := by
  simp [Definition.field?, Definition.fieldNames, List.find?_isSome]

namespace ModelName

theorem field?_of_mem {name : ModelName} {field : Field}
    (membership : field ∈ name.definition.fields) :
    name.definition.field? field.name = some field := by
  have namesDiffer := name.fieldNames_nodup
  rw [Definition.fieldNames] at namesDiffer
  obtain ⟨before, after, split⟩ := List.append_of_mem membership
  rw [Definition.field?, split, List.find?_append, List.find?_cons_of_pos (by simp)]
  have fresh : before.find? (fun other => other.name == field.name) = none := by
    rw [List.find?_eq_none]
    intro other inBefore same
    rw [split, List.map_append, List.map_cons] at namesDiffer
    exact List.disjoint_of_nodup_append namesDiffer
      (List.mem_map.mpr ⟨other, inBefore, by simpa using same⟩) List.mem_cons_self
  simp [fresh]

theorem formOf?_of_mem {name : ModelName} {field : Field}
    (membership : field ∈ name.definition.fields) :
    name.definition.formOf? (.text field.name) = some field.form := by
  simp [Definition.formOf?, field?_of_mem membership]

theorem formOf?_eq_some {name : ModelName} {key : Atom} {form : Form}
    (known : name.definition.formOf? key = some form) :
    ∃ field ∈ name.definition.fields, key = .text field.name ∧ form = field.form := by
  cases key with
  | text keyName =>
      rw [Definition.formOf?, Option.map_eq_some_iff] at known
      obtain ⟨field, found, equality⟩ := known
      have named : field.name = keyName := by simpa using List.find?_some found
      exact ⟨field, List.mem_of_find?_eq_some found, by rw [named], equality.symm⟩
  | null => simp [Definition.formOf?] at known
  | boolean value => simp [Definition.formOf?] at known
  | number value => simp [Definition.formOf?] at known
  | time value => simp [Definition.formOf?] at known
  | bytes content => simp [Definition.formOf?] at known

end ModelName

theorem lookupText_map {α β : Type} (f : Atom → α → β) (name : String)
    (entries : List (Atom × α)) :
    lookupText name (entries.map fun entry => (entry.1, f entry.1 entry.2)) =
      (lookupText name entries).map (f (.text name)) := by
  induction entries with
  | nil => rfl
  | cons entry rest inductionHypothesis =>
      rcases entry with ⟨key, value⟩
      by_cases same : key = .text name <;> simp [lookupText, same, inductionHypothesis]

theorem lookupText_entryOutcomes {name : ModelName} {field : Field}
    (membership : field ∈ name.definition.fields) (entries : List (Atom × Value)) :
    (lookupText field.name (entryOutcomes name.definition entries)).join =
      (lookupText field.name entries).map fun value => value.check field.form := by
  rw [entryOutcomes, lookupText_map fun key (value : Value) =>
    (name.definition.formOf? key).map value.check, ModelName.formOf?_of_mem membership]
  cases lookupText field.name entries <;> rfl

theorem keys_entryOutcomes (definition : Definition) (entries : List (Atom × Value)) :
    (entryOutcomes definition entries).map Prod.fst = entries.map Prod.fst := by
  rw [entryOutcomes, List.map_map]
  rfl

/-- The faults that a field adds, given whether it is excluded and what became of it. -/
def Field.faults (field : Field) (excluded : Bool) : Option Outcome → List Fault
  | none => if field.required then [⟨[.key (.text field.name)], .missing⟩] else []
  | some (.ok _) =>
      if excluded then
        [⟨[.key (.text field.name)], .refined (.excluded field.name field.excludes)⟩]
      else []
  | some (.error faults) => faults.map (Fault.under (.key (.text field.name)))

def Field.taken? (excluded : Bool) : Option Outcome → Option Value
  | some (.ok value) => if excluded then none else some value
  | _ => none

theorem Gathered.add_eq (checked : List (Atom × Option Outcome)) (gathered : Gathered)
    (field : Field) :
    let outcome := (lookupText field.name checked).join
    let excluded := field.isExcluded gathered.fields
    gathered.add checked field =
      ⟨gathered.faults ++ field.faults excluded outcome,
        gathered.fields ++ ((Field.taken? excluded outcome).map (Prod.mk field.name)).toList⟩ := by
  intro outcome excluded
  rw [add]
  cases found : outcome with
  | none => cases needed : field.required <;> simp [outcome, found, Field.faults, Field.taken?, needed]
  | some result =>
      cases result with
      | ok value =>
          cases apart : excluded <;>
            simp_all [outcome, excluded, Field.faults, Field.taken?]
      | error faults => simp_all [outcome, Field.faults, Field.taken?]

/-- What a field of an object may have wrong with it. -/
inductive Field.Reports (checked : List (Atom × Option Outcome)) (field : Field) : Fault → Prop
  | missing : (lookupText field.name checked).join = none →
      Field.Reports checked field ⟨[.key (.text field.name)], .missing⟩
  | excluded {value} : (lookupText field.name checked).join = some (.ok value) →
      Field.Reports checked field
        ⟨[.key (.text field.name)], .refined (.excluded field.name field.excludes)⟩
  | inside {faults fault} : (lookupText field.name checked).join = some (.error faults) →
      fault ∈ faults → Field.Reports checked field (fault.under (.key (.text field.name)))

theorem mem_faults_add {checked : List (Atom × Option Outcome)} {gathered : Gathered}
    {field : Field} {fault : Fault} (reported : fault ∈ (gathered.add checked field).faults) :
    fault ∈ gathered.faults ∨ field.Reports checked fault := by
  rw [Gathered.add_eq] at reported
  rcases List.mem_append.mp reported with earlier | added
  · exact .inl earlier
  · refine .inr ?_
    cases outcome : (lookupText field.name checked).join with
    | none =>
        rw [outcome, Field.faults] at added
        split at added
        · exact List.mem_singleton.mp added ▸ .missing outcome
        · simp at added
    | some result =>
        rw [outcome] at added
        cases result with
        | ok value =>
            rw [Field.faults] at added
            split at added
            · exact List.mem_singleton.mp added ▸ .excluded outcome
            · simp at added
        | error faults =>
            obtain ⟨inner, inFaults, rfl⟩ := List.mem_map.mp added
            exact .inside outcome inFaults

theorem mem_faults_gathered {checked : List (Atom × Option Outcome)} {fields : List Field}
    {gathered : Gathered} {fault : Fault}
    (reported : fault ∈ (fields.foldl (Gathered.add checked) gathered).faults) :
    fault ∈ gathered.faults ∨ ∃ field ∈ fields, field.Reports checked fault := by
  induction fields generalizing gathered with
  | nil => exact .inl reported
  | cons field rest inductionHypothesis =>
      rcases inductionHypothesis reported with earlier | ⟨later, inRest, reports⟩
      · rcases mem_faults_add earlier with before | reports
        · exact .inl before
        · exact .inr ⟨field, List.mem_cons_self, reports⟩
      · exact .inr ⟨later, List.mem_cons_of_mem _ inRest, reports⟩

theorem mem_unknownKeys {definition : Definition} {keys : List Atom} {fault : Fault}
    (reported : fault ∈ definition.unknownKeys keys) :
    ∃ key ∈ keys, fault.location = [.key key] ∧ fault.cause ≠ .missing := by
  rw [Definition.unknownKeys] at reported
  split at reported
  · obtain ⟨key, membership, found⟩ := List.mem_filterMap.mp reported
    refine ⟨key, membership, ?_⟩
    split at found
    · split at found
      · simp at found
      · cases found
        exact ⟨rfl, by simp⟩
    · cases found
      exact ⟨rfl, by simp⟩
  · simp at reported

theorem unknownKeys_eq_nil_iff {definition : Definition} {keys : List Atom} :
    definition.unknownKeys keys = [] ↔
      (definition.closed = true → ∀ key ∈ keys, ∃ name ∈ definition.fieldNames, key = .text name) := by
  rw [Definition.unknownKeys]
  split
  next closed =>
      simp only [closed, forall_const, List.filterMap_eq_nil_iff]
      refine forall₂_congr fun key _ => ?_
      cases key with
      | text name =>
          simp [← Definition.field?_isSome_iff, Option.isSome_iff_ne_none]
      | null => simp
      | boolean value => simp
      | number value => simp
      | time value => simp
      | bytes content => simp
  next open_ => simp [open_]

/-- A fault of an object is one of a field or an unknown key, or it concerns an object as a whole of which
every key is known. -/
theorem mem_faults_assemble {name : ModelName} {checked : List (Atom × Option Outcome)}
    {fault : Fault} (reported : fault ∈ (name.assemble checked).faults) :
    (∃ refinement, fault = ⟨[], .refined refinement⟩ ∧
      ∀ key ∈ checked.map Prod.fst, ∃ fieldName ∈ name.definition.fieldNames, key = .text fieldName) ∨
    (∃ field ∈ name.definition.fields, field.Reports checked fault) ∨
      fault ∈ name.definition.unknownKeys (checked.map Prod.fst) := by
  simp only [ModelName.assemble] at reported
  split at reported
  next empty =>
      rw [List.isEmpty_iff, List.append_eq_nil_iff, unknownKeys_eq_nil_iff] at empty
      split at reported
      next refinement failed =>
          rw [faults_refuse, List.mem_singleton] at reported
          refine .inl ⟨refinement, reported, ?_⟩
          rcases name.closed_or_rules_nil with closed | noRules
          · exact empty.2 closed
          · simp [noRules] at failed
      · simp [Outcome.faults] at reported
  next =>
      rw [Outcome.faults, List.mem_append] at reported
      rcases reported with inField | unknown
      · rcases mem_faults_gathered inField with none | ofField
        · simp at none
        · exact .inr (.inl ofField)
      · exact .inr (.inr unknown)

end AnimationGrammar
