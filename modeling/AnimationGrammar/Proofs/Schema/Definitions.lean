import AnimationGrammar.Proofs.Schema.Places
import Mathlib.Data.Finset.Card

/-!
The definitions of a schema document.

A document collects the definitions that its root refers to, those that these refer to, and so on.
`Form.references` says what the schema of a form refers to, and the names collected are closed under it:
there are only so many names, and every round that is not the last one adds a name.
-/

namespace AnimationGrammar

namespace Form

mutual

def references : Form → List String
  | .text _ => []
  | .number _ => []
  | .literal _ => []
  | .flag => []
  | .anyJson => [anyJsonLabel]
  | .model name => [name.label]
  | .tuple positions _ => positionReferences positions
  | .list item _ _ => item.references
  | .dictionary _ item => item.references
  | .choice _ branches => branchReferences branches

def positionReferences : List Form → List String
  | [] => []
  | form :: rest => form.references ++ positionReferences rest

def branchReferences : List (String × Form) → List String
  | [] => []
  | (_, form) :: rest => form.references ++ branchReferences rest

end

end Form

namespace Schema

theorem references_eq (schema : Schema) : references schema = schema.flatMap keywordReferences := by
  induction schema with
  | nil => rw [references, List.flatMap_nil]
  | cons keyword rest inductionHypothesis =>
      rw [references, inductionHypothesis, List.flatMap_cons]

theorem references_append (first second : Schema) :
    references (first ++ second) = references first ++ references second := by
  rw [references_eq, references_eq, references_eq, List.flatMap_append]

theorem allReferences_eq (schemas : List Schema) :
    allReferences schemas = schemas.flatMap references := by
  induction schemas with
  | nil => rw [allReferences, List.flatMap_nil]
  | cons schema rest inductionHypothesis =>
      rw [allReferences, inductionHypothesis, List.flatMap_cons]

theorem references_limitKeyword {keyword : Numeral → Keyword} (limit : Option Numeral)
    (none : ∀ n, keywordReferences (keyword n) = []) :
    references (limitKeyword keyword limit) = [] := by
  unfold limitKeyword
  split <;> simp [references, none]

theorem references_bounds (bounds : Bounds) : references bounds.keywords = [] := by
  rw [Bounds.keywords]
  simp only [references_append]
  rw [references_limitKeyword _ fun _ => rfl, references_limitKeyword _ fun _ => rfl,
    references_limitKeyword _ fun _ => rfl, references_limitKeyword _ fun _ => rfl]
  rfl

end Schema

namespace Form

open Schema (references_append)

mutual

/-- The schema of a regular form refers to what the form refers to. -/
theorem references_schema : ∀ form : Form, form.isRegular = true →
    Schema.references form.schema = form.references
  | .text rule, _ => by
      cases rule <;> simp [schema, TextRule.keywords, Schema.references, Schema.keywordReferences,
        references]
  | .number rule, _ => by
      have nonZero : Schema.references
          (if rule.nonZero then [.not [.const (.number (.integer 0))]] else []) = [] := by
        split <;> simp [Schema.references, Schema.keywordReferences]
      rw [schema, references_append, Schema.references, Schema.references_bounds, nonZero]
      rfl
  | .literal [], _ => by simp [schema, Schema.references, Schema.keywordReferences, references]
  | .literal [_], _ => by simp [schema, Schema.references, Schema.keywordReferences, references]
  | .literal (_ :: _ :: _), _ => by
      simp [schema, Schema.references, Schema.keywordReferences, references]
  | .flag, _ => by simp [schema, Schema.references, Schema.keywordReferences, references]
  | .anyJson, _ => by simp [schema, Schema.references, Schema.keywordReferences, references]
  | .model name, _ => by simp [schema, Schema.references, Schema.keywordReferences, references]
  | .tuple positions distinct, regular => by
      simp only [isRegular, Bool.and_eq_true] at regular
      have each := references_positionSchemas positions regular.1
      rw [schema, references_append, references]
      split <;> simp [Schema.references, Schema.keywordReferences, each]
  | .list item minLength unique, regular => by
      have inner := references_schema item regular
      rw [schema, references_append, references_append, references]
      cases minLength <;> split <;> simp [Schema.references, Schema.keywordReferences, inner]
  | .dictionary key item, regular => by simp [isRegular] at regular
  | .choice dispatch branches, regular => by
      have choice := regularChoice_iff.mp regular
      have each := references_branches branches (by
        simp only [isRegular, Bool.and_eq_true] at regular
        exact regular.1.1.1)
      have kept : Schema.allReferences (withoutRepeats (branchSchemas branches)) =
          branchReferences branches := by
        rw [choice.withoutRepeats_eq, ← branchSchemas_eq, each]
      cases dispatch <;>
        simp [schema, Schema.references, Schema.keywordReferences, kept, references]

theorem references_positionSchemas : ∀ forms : List Form, areRegular forms = true →
    Schema.allReferences (positionSchemas forms) = positionReferences forms
  | [], _ => rfl
  | form :: rest, regular => by
      simp only [areRegular, Bool.and_eq_true] at regular
      rw [positionSchemas, Schema.allReferences, references_schema form regular.1,
        references_positionSchemas rest regular.2, positionReferences]

theorem references_branches : ∀ branches : List (String × Form),
    branchesAreRegular branches = true →
    Schema.allReferences (branchSchemas branches) = branchReferences branches
  | [], _ => rfl
  | (label, form) :: rest, regular => by
      simp only [branchesAreRegular, Bool.and_eq_true] at regular
      rw [branchSchemas, Schema.allReferences, references_schema form regular.1,
        references_branches rest regular.2, branchReferences]

end

end Form

namespace Schema

theorem propertyReferences_eq (schemas : List (String × Schema)) :
    propertyReferences schemas = schemas.flatMap fun member => references member.2 := by
  induction schemas with
  | nil => rw [propertyReferences, List.flatMap_nil]
  | cons member rest inductionHypothesis =>
      rcases member with ⟨name, schema⟩
      rw [propertyReferences, inductionHypothesis, List.flatMap_cons]

theorem references_eq_nil {schema : Schema}
    (none : ∀ keyword ∈ schema, keywordReferences keyword = []) : references schema = [] := by
  rw [references_eq, List.flatMap_eq_nil_iff]
  exact none

theorem references_required (others : List String) :
    allReferences (others.map fun other => [.required [other]]) = [] := by
  rw [allReferences_eq, List.flatMap_eq_nil_iff, List.forall_mem_map]
  intro other _
  simp [references, keywordReferences]

theorem references_field {name : ModelName} {field : Field}
    (membership : field ∈ name.definition.fields) :
    references field.schema = field.form.references := by
  have description : references (field.description.map Keyword.description).toList = [] := by
    cases field.description <;> simp [references, keywordReferences]
  rw [Field.schema, references_append, references_append, references_append,
    Form.references_schema _ (name.field_isRegular field membership), description]
  split <;> split <;> simp [references, keywordReferences]

end Schema

theorem ModelName.references_schema (name : ModelName) :
    Schema.references name.schema =
      name.definition.fields.flatMap fun field => field.form.references := by
  have fields : Schema.propertyReferences
      (name.definition.fields.map fun field => (field.name, field.schema)) =
      name.definition.fields.flatMap fun field => field.form.references := by
    rw [Schema.propertyReferences_eq, List.flatMap_map]
    exact List.flatMap_congr fun field membership => Schema.references_field membership
  have requirement : Schema.references name.definition.requirement = [] := by
    unfold Definition.requirement
    split <;> simp [Schema.references, Schema.keywordReferences]
  have closed : Schema.references
      (if name.definition.closed then [.noOtherProperties] else []) = [] := by
    split <;> simp [Schema.references, Schema.keywordReferences]
  have rules : Schema.references (name.definition.rules.map ModelRule.keyword) = [] := by
    apply Schema.references_eq_nil
    rw [List.forall_mem_map]
    intro rule _
    cases rule <;>
      simp [ModelRule.keyword, Schema.keywordReferences, Schema.allReferences, Schema.references]
  have exclusions : Schema.references (name.definition.fields.flatMap Field.exclusion) = [] := by
    apply Schema.references_eq_nil
    intro keyword membership
    obtain ⟨field, _, inside⟩ := List.mem_flatMap.mp membership
    simp [field.eq_of_mem_exclusion inside, Schema.keywordReferences, Schema.references,
      Schema.references_required]
  have description : Schema.references
      (name.definition.description.map Keyword.description).toList = [] := by
    cases name.definition.description <;> simp [Schema.references, Schema.keywordReferences]
  simp only [schema_eq, Schema.references_append, requirement, closed, rules, exclusions,
    description, List.append_nil]
  simp [Schema.references, Schema.keywordReferences, fields]

/-! ### Collecting the definitions -/

def definedNames : List String := anyJsonLabel :: ModelName.all.map ModelName.label

theorem ModelName.label_ne_anyJsonLabel (name : ModelName) : name.label ≠ anyJsonLabel := by
  revert name
  suffices ∀ name ∈ all, name.label ≠ anyJsonLabel from fun name => this name name.mem_all
  decide +kernel

theorem ModelName.reference_defined (name : ModelName) :
    ∀ field ∈ name.definition.fields, ∀ reference ∈ field.form.references,
      reference ∈ definedNames := by
  revert name
  suffices ∀ name ∈ all, ∀ field ∈ name.definition.fields, ∀ reference ∈ field.form.references,
      reference ∈ definedNames from fun name => this name name.mem_all
  decide +kernel

namespace SchemaDocument

theorem definitionOf?_label (name : ModelName) :
    definitionOf? name.label = some name.schema := by
  rw [definitionOf?, if_neg name.label_ne_anyJsonLabel, name.ofLabel?_label]
  rfl

theorem definitionOf?_eq_some_iff {name : String} {schema : Schema} :
    definitionOf? name = some schema ↔
      (name = anyJsonLabel ∧ schema = []) ∨ ∃ model : ModelName, name = model.label ∧
        schema = model.schema := by
  constructor
  · intro found
    rw [definitionOf?] at found
    split at found
    next anyJson => exact .inl ⟨anyJson, (Option.some.inj found).symm⟩
    next =>
        obtain ⟨model, labelled, rfl⟩ := Option.map_eq_some_iff.mp found
        have same := List.find?_some labelled
        rw [beq_iff_eq] at same
        exact .inr ⟨model, same.symm, rfl⟩
  · rintro (⟨rfl, rfl⟩ | ⟨model, rfl, rfl⟩)
    · rfl
    · exact definitionOf?_label model

def successors (name : String) : List String :=
  Schema.references ((definitionOf? name).getD [])

theorem successors_label (name : ModelName) :
    successors name.label =
      name.definition.fields.flatMap fun field => field.form.references := by
  rw [successors, definitionOf?_label, Option.getD_some, name.references_schema]

theorem mem_definedNames_of_successor {name reference : String}
    (referred : reference ∈ successors name) : reference ∈ definedNames := by
  rw [successors] at referred
  cases found : definitionOf? name with
  | none => simp [found, Schema.references] at referred
  | some schema =>
      rw [found, Option.getD_some] at referred
      rcases definitionOf?_eq_some_iff.mp found with ⟨_, rfl⟩ | ⟨model, _, rfl⟩
      · simp [Schema.references] at referred
      · rw [model.references_schema, List.mem_flatMap] at referred
        obtain ⟨field, membership, inside⟩ := referred
        exact model.reference_defined field membership reference inside

theorem nodup_eraseDups (names : List String) : names.eraseDups.Nodup := by
  match names with
  | [] => simp
  | first :: rest =>
      rw [List.eraseDups_cons, List.nodup_cons]
      refine ⟨?_, nodup_eraseDups _⟩
      simp [List.mem_eraseDups]
termination_by names.length
decreasing_by exact Nat.lt_succ_of_le (List.length_filter_le _ _)

/-- Where there are more steps than names left, the names reached are closed under references. -/
theorem reach_closed {steps : Nat} {names : List String} (differ : names.Nodup)
    (defined : ∀ name ∈ names, name ∈ definedNames)
    (enough : definedNames.length < steps + names.length) :
    (∀ name ∈ names, name ∈ reach steps names) ∧ (reach steps names).Nodup ∧
      ∀ name ∈ reach steps names, ∀ reference ∈ successors name,
        reference ∈ reach steps names := by
  induction steps generalizing names with
  | zero =>
      have few := differ.length_le_of_subset defined
      omega
  | succ steps inductionHypothesis =>
      rw [reach]
      generalize next : (names.flatMap fun name =>
        Schema.references ((definitionOf? name).getD [])) = referred
      generalize new : (referred.filter fun name => !(name ∈ names)).eraseDups = fresh
      have mem_fresh (name : String) : name ∈ fresh ↔ name ∈ referred ∧ name ∉ names := by
        rw [← new, List.mem_eraseDups, List.mem_filter]
        simp
      have mem_referred (name : String) :
          name ∈ referred ↔ ∃ earlier ∈ names, name ∈ successors earlier := by
        rw [← next, List.mem_flatMap]
        rfl
      by_cases done : fresh = []
      · simp only [done, List.isEmpty_nil, if_true]
        refine ⟨fun name membership => membership, differ, fun name membership reference inside => ?_⟩
        by_contra outside
        have isFresh := (mem_fresh reference).mpr
          ⟨(mem_referred reference).mpr ⟨name, membership, inside⟩, outside⟩
        simp [done] at isFresh
      · have grows : 0 < fresh.length := List.length_pos_iff.mpr done
        have differToo : (names ++ fresh).Nodup := by
          refine differ.append (new ▸ nodup_eraseDups _) fun name inNames inFresh => ?_
          exact ((mem_fresh name).mp inFresh).2 inNames
        have definedToo : ∀ name ∈ names ++ fresh, name ∈ definedNames := by
          intro name membership
          rcases List.mem_append.mp membership with inNames | inFresh
          · exact defined name inNames
          · obtain ⟨earlier, _, inside⟩ := (mem_referred name).mp ((mem_fresh name).mp inFresh).1
            exact mem_definedNames_of_successor inside
        have more := inductionHypothesis differToo definedToo (by rw [List.length_append]; omega)
        simp only [List.isEmpty_iff, done, if_false]
        exact ⟨fun name membership => more.1 name (List.mem_append_left _ membership), more.2⟩

/-- The names reached from a schema hold its references and are closed under references. -/
theorem reached_closed {root : Schema} (defined : ∀ name ∈ Schema.references root,
    name ∈ definedNames) :
    (∀ name ∈ Schema.references root, name ∈ reached root) ∧ (reached root).Nodup ∧
      ∀ name ∈ reached root, ∀ reference ∈ successors name, reference ∈ reached root := by
  have definedToo : ∀ name ∈ (Schema.references root).eraseDups, name ∈ definedNames :=
    fun name membership => defined name (List.mem_eraseDups.mp membership)
  rw [reached]
  cases start : (Schema.references root).eraseDups with
  | nil =>
      have none : Schema.references root = [] := by
        rw [List.eq_nil_iff_forall_not_mem]
        intro name membership
        simpa [start] using List.mem_eraseDups.mpr membership
      simp [none, reach]
  | cons first rest =>
      have enough : definedNames.length < ModelName.all.length + 1 + (first :: rest).length := by
        simp [definedNames]
      obtain ⟨contains, differ, closed⟩ :=
        reach_closed (start ▸ nodup_eraseDups _) (start ▸ definedToo) enough
      refine ⟨fun name membership => contains name ?_, differ, closed⟩
      exact start ▸ List.mem_eraseDups.mpr membership

/-- A document defines the names that are reached from its root. -/
theorem lookup_closing {root : Schema} (differ : (reached root).Nodup) {name : String}
    {schema : Schema} :
    (closing root).definitions.lookup name = some schema ↔
      name ∈ reached root ∧ definitionOf? name = some schema := by
  have sorted := (sortByName_perm ((reached root).map fun name => (name, ()))).map Prod.fst
  have sortedDiffer : ((sortByName ((reached root).map fun name => (name, ()))).map
      Prod.fst).Nodup := by
    rw [sorted.nodup_iff, List.map_map]
    simpa [Function.comp_def] using differ
  have namesDiffer : ((closing root).definitions.map Prod.fst).Nodup := by
    refine (names_filterMap_sublist (fun reachedName member found => ?_) _).nodup sortedDiffer
    obtain ⟨definition, _, same⟩ := Option.map_eq_some_iff.mp found
    exact same ▸ rfl
  rw [lookup_eq_some_iff_mem namesDiffer, closing, List.mem_filterMap]
  constructor
  · rintro ⟨⟨reachedName, _⟩, membership, found⟩
    rw [Option.map_eq_some_iff] at found
    obtain ⟨definition, found, same⟩ := found
    cases same
    rw [(sortByName_perm _).mem_iff, List.mem_map] at membership
    obtain ⟨_, inReached, same⟩ := membership
    cases same
    exact ⟨inReached, found⟩
  · rintro ⟨inReached, found⟩
    refine ⟨(name, ()), ?_, by simp [found]⟩
    rw [(sortByName_perm _).mem_iff]
    exact List.mem_map.mpr ⟨name, inReached, rfl⟩

end SchemaDocument

end AnimationGrammar
