import AnimationGrammar.Schema.Description
import AnimationGrammar.Proofs.Validation.Path
import AnimationGrammar.Proofs.Value.Related
import AnimationGrammar.Proofs.Value.Similar

/-!
Descriptions for editors.

A value inside of a schema is read in one of two roles, and the step that leads to it tells which.  In each
role describing does the same to every layer: the entries of an object are described in the roles that
their keys give them, and at its end something may be added.  So what holds of the walk as a whole follows
from what it does to one layer.
-/

namespace AnimationGrammar

/-! ### Roles -/

/-- How a value inside of a schema is read. -/
inductive SchemaRole
  /-- As a schema, or as a value that schemas may lie in. -/
  | schema
  /-- As a map from names to schemas. -/
  | nameMap
  deriving DecidableEq

namespace SchemaRole

/-- How the value that a step leads to is read. -/
def enter : SchemaRole → Atom → SchemaRole
  | schema, step => if isNameMap step then nameMap else schema
  | nameMap, _ => schema

def along (role : SchemaRole) (path : Path) : SchemaRole := path.foldl enter role

def added : SchemaRole → List (Atom × Value) → List (Atom × Value)
  | schema, entries => withMarkdown entries []
  | nameMap, _ => []

end SchemaRole

theorem withMarkdown_eq (entries described : List (Atom × Value)) :
    withMarkdown entries described = described ++ withMarkdown entries [] := by
  unfold withMarkdown
  split <;> simp

namespace Value

/-- A value in its role with descriptions for editors. -/
def describeAs (value : Value) : SchemaRole → Except NoNameMap Value
  | .schema => value.describe
  | .nameMap => value.describeNames

def DescribesEntry (role : SchemaRole) (entry other : Atom × Value) : Prop :=
  entry.1 = other.1 ∧ entry.2.describeAs (role.enter entry.1) = .ok other.2

theorem describeItems_eq_ok_iff {items others : List Value} :
    describeItems items = .ok others ↔
      List.Forall₂ (fun item other => item.describe = .ok other) items others := by
  induction items generalizing others with
  | nil => simp [describeItems, eq_comm]
  | cons item rest inductionHypothesis =>
      rw [describeItems, List.forall₂_cons_left_iff]
      cases item.describe with
      | error failure => simp
      | ok described =>
          simp only [map_eq_ok_iff, inductionHypothesis, Except.ok.injEq]
          constructor
          · rintro ⟨later, each, rfl⟩
            exact ⟨described, later, rfl, each, rfl⟩
          · rintro ⟨_, later, rfl, each, rfl⟩
            exact ⟨later, each, rfl⟩

def describeEntriesAs (entries : List (Atom × Value)) :
    SchemaRole → Except NoNameMap (List (Atom × Value))
  | .schema => describeEntries entries
  | .nameMap => describeValues entries

theorem describeEntriesAs_cons (key : Atom) (value : Value) (rest : List (Atom × Value))
    (role : SchemaRole) :
    describeEntriesAs ((key, value) :: rest) role =
      match value.describeAs (role.enter key) with
      | .error failure => .error failure
      | .ok described => (describeEntriesAs rest role).map ((key, described) :: ·) := by
  cases role with
  | nameMap => rfl
  | schema =>
      rw [describeEntriesAs, describeEntries, SchemaRole.enter]
      cases isNameMap key <;> rfl

theorem describeEntriesAs_eq_ok_iff {entries others : List (Atom × Value)} {role : SchemaRole} :
    describeEntriesAs entries role = .ok others ↔
      List.Forall₂ (DescribesEntry role) entries others := by
  induction entries generalizing others with
  | nil => cases role <;> simp [describeEntriesAs, describeEntries, describeValues, eq_comm]
  | cons entry rest inductionHypothesis =>
      rcases entry with ⟨key, value⟩
      rw [describeEntriesAs_cons, List.forall₂_cons_left_iff]
      cases found : value.describeAs (role.enter key) with
      | error failure => simp [DescribesEntry, found]
      | ok described =>
          simp only [map_eq_ok_iff, inductionHypothesis]
          constructor
          · rintro ⟨later, each, rfl⟩
            exact ⟨(key, described), later, ⟨rfl, found⟩, each, rfl⟩
          · rintro ⟨⟨_, other⟩, later, ⟨rfl, same⟩, each, rfl⟩
            cases found.symm.trans same
            exact ⟨later, each, rfl⟩

/-! ### One layer -/

variable {role : SchemaRole} {described : Value}

theorem describeAs_atom_iff {a : Atom} :
    (Value.atom a).describeAs role = .ok described ↔ role = .schema ∧ .atom a = described := by
  cases role <;> simp [describeAs, describe, describeNames]

theorem describeAs_list_iff {items : List Value} :
    (Value.list items).describeAs role = .ok described ↔ role = .schema ∧ ∃ others,
      List.Forall₂ (fun item other => item.describeAs .schema = .ok other) items others ∧
        .list others = described := by
  cases role with
  | nameMap => simp [describeAs, describeNames]
  | schema => simp [describeAs, describe, map_eq_ok_iff, describeItems_eq_ok_iff]

theorem describeAs_mapping_iff {entries : List (Atom × Value)} :
    (Value.mapping entries).describeAs role = .ok described ↔
      ∃ others, List.Forall₂ (DescribesEntry role) entries others ∧
        .mapping (others ++ role.added entries) = described := by
  have layer : (Value.mapping entries).describeAs role =
      (describeEntriesAs entries role).map fun others => .mapping (others ++ role.added entries) := by
    cases role with
    | schema =>
        have atEnd (others : List (Atom × Value)) := withMarkdown_eq entries others
        simp only [describeAs, describe, describeEntriesAs, SchemaRole.added, ← atEnd]
    | nameMap =>
        simp only [describeAs, describeNames, describeEntriesAs, SchemaRole.added, List.append_nil]
  simp only [layer, map_eq_ok_iff, describeEntriesAs_eq_ok_iff]

theorem describeAs_text {value : Value} {content : String}
    (found : value.describeAs role = .ok (.text content)) : value = .text content := by
  cases value with
  | atom a => exact (describeAs_atom_iff.mp found).2
  | list items =>
      obtain ⟨-, others, -, same⟩ := describeAs_list_iff.mp found
      nomatch same
  | mapping entries =>
      obtain ⟨others, -, same⟩ := describeAs_mapping_iff.mp found
      nomatch same
  | tuple items => cases role <;> simp [describeAs, describe, describeNames] at found
  | record model fields => cases role <;> simp [describeAs, describe, describeNames] at found

/-! ### Entries -/

section
variable {entries others : List (Atom × Value)}

theorem keys_eq_of_describes (each : List.Forall₂ (DescribesEntry role) entries others) :
    entries.map Prod.fst = others.map Prod.fst := by
  induction each with
  | nil => rfl
  | cons first _ inductionHypothesis => rw [List.map_cons, List.map_cons, first.1, inductionHypothesis]

theorem lookupText_of_describes {name : String} {inner : Value}
    (each : List.Forall₂ (DescribesEntry role) entries others)
    (given : lookupText name entries = some inner) :
    ∃ other, lookupText name others = some other ∧
      inner.describeAs (role.enter (.text name)) = .ok other := by
  induction each with
  | nil => nomatch given
  | @cons entry other rest later first _ inductionHypothesis =>
      obtain ⟨sameKey, found⟩ := first
      rw [lookupText] at given ⊢
      rw [← sameKey]
      split at given
      next same =>
          rw [if_pos same]
          cases given
          exact ⟨other.2, rfl, same ▸ found⟩
      next apart =>
          rw [if_neg apart]
          exact inductionHypothesis given

end

/-! ### Following a path -/

theorem enter_position {step : Atom} {index : Nat} (isPosition : step.position? = some index) :
    role.enter step = .schema := by
  cases role with
  | nameMap => rfl
  | schema => cases step <;> simp_all [SchemaRole.enter, isNameMap, Atom.position?]

/-- What a step leads to is described in its role. -/
theorem enter?_of_describes {value inner : Value} (json : value.IsJson) {step : Atom}
    (found : value.describeAs role = .ok described) (entered : value.enter? step = some inner) :
    ∃ other, described.enter? step = some other ∧ inner.describeAs (role.enter step) = .ok other := by
  cases value, json using jsonCases with
  | atom a _ => cases step <;> simp [enter?] at entered
  | list items _ =>
      obtain ⟨rfl, others, each, rfl⟩ := describeAs_list_iff.mp found
      rw [enter?, Option.bind_eq_some_iff] at entered
      obtain ⟨index, isPosition, inItems⟩ := entered
      obtain ⟨other, inOthers, found⟩ := forall₂_getElem? each inItems
      refine ⟨other, ?_, by rwa [enter_position isPosition]⟩
      rw [enter?, isPosition, Option.bind_some, inOthers]
  | mapping entries _ =>
      obtain ⟨others, each, rfl⟩ := describeAs_mapping_iff.mp found
      cases step with
      | text name =>
          obtain ⟨other, given, found⟩ := lookupText_of_describes each entered
          exact ⟨other, by rw [enter?, lookupText_append, given, Option.some_or], found⟩
      | _ => simp [enter?] at entered

theorem IsJson.enter? {value inner : Value} (json : value.IsJson) {step : Atom}
    (entered : value.enter? step = some inner) : inner.IsJson := by
  cases value, json using jsonCases with
  | atom a _ => cases step <;> simp [Value.enter?] at entered
  | list items json =>
      rw [Value.enter?, Option.bind_eq_some_iff] at entered
      obtain ⟨index, -, inItems⟩ := entered
      exact json.item (List.mem_of_getElem? inItems)
  | mapping entries json =>
      cases step with
      | text name => exact json.entry (lookupText_eq_some_mem entered)
      | _ => simp [Value.enter?] at entered

theorem follow?_of_describes {value part : Value} {path : Path} (json : value.IsJson)
    (found : value.describeAs role = .ok described) (reached : value.follow? path = some part) :
    ∃ other, described.follow? path = some other ∧ part.describeAs (role.along path) = .ok other := by
  induction path generalizing value role described with
  | nil =>
      cases reached
      exact ⟨described, rfl, found⟩
  | cons step rest inductionHypothesis =>
      rw [follow?, Option.bind_eq_some_iff] at reached
      obtain ⟨inner, entered, later⟩ := reached
      obtain ⟨other, alsoEntered, found⟩ := enter?_of_describes json found entered
      obtain ⟨place, alsoReached, found⟩ := inductionHypothesis (json.enter? entered) found later
      refine ⟨place, ?_, found⟩
      rw [follow?, alsoEntered, Option.bind_some, alsoReached]

/-- An object inside of a schema is found at the same place, described in its role. -/
theorem object_of_describes {node : Value} (json : node.IsJson)
    (found : node.describeAs role = .ok described) {path : Path} {entries : List (Atom × Value)}
    (reached : node.follow? path = some (.mapping entries)) :
    ∃ others, List.Forall₂ (DescribesEntry (role.along path)) entries others ∧
      described.follow? path = some (.mapping (others ++ (role.along path).added entries)) := by
  obtain ⟨other, alsoReached, found⟩ := follow?_of_describes json found reached
  obtain ⟨others, each, rfl⟩ := describeAs_mapping_iff.mp found
  exact ⟨others, each, alsoReached⟩

/-! ### Where names are mapped to schemas -/

def HasNameMaps (value : Value) (role : SchemaRole) : Prop :=
  ∀ path part, role.along path = .nameMap → value.follow? path = some part →
    ∃ entries, part = .mapping entries

theorem HasNameMaps.enter {value inner : Value} {step : Atom} (maps : value.HasNameMaps role)
    (entered : value.enter? step = some inner) : inner.HasNameMaps (role.enter step) := by
  intro path part isNames reached
  apply maps (step :: path) part isNames
  rw [follow?, entered, Option.bind_some, reached]

theorem HasNameMaps.eq_schema {value : Value} (maps : value.HasNameMaps role)
    (noObject : ∀ entries, value ≠ .mapping entries) : role = .schema := by
  cases role with
  | schema => rfl
  | nameMap =>
      obtain ⟨entries, same⟩ := maps [] value rfl rfl
      exact absurd same (noObject entries)

theorem exists_describeAs {value : Value} (json : value.IsJson) (maps : value.HasNameMaps role) :
    ∃ described, value.describeAs role = .ok described := by
  induction value, json using jsonInduction generalizing role with
  | atom a json =>
      obtain rfl := maps.eq_schema nofun
      exact ⟨_, describeAs_atom_iff.mpr ⟨rfl, rfl⟩⟩
  | list items json inductionHypothesis =>
      obtain rfl := maps.eq_schema nofun
      have each : ∀ item ∈ items, ∃ other, item.describeAs .schema = .ok other := by
        intro item membership
        obtain ⟨index, inItems⟩ := List.getElem?_of_mem membership
        have entered : (Value.list items).enter? (.number (.integer index)) = some item := by
          simpa [Value.enter?, Atom.position?] using inItems
        exact inductionHypothesis item membership (maps.enter entered)
      obtain ⟨others, each⟩ := forall₂_exists_iff.mpr each
      exact ⟨_, describeAs_list_iff.mpr ⟨rfl, others, each, rfl⟩⟩
  | mapping entries json inductionHypothesis =>
      have each : ∀ entry ∈ entries, ∃ other, DescribesEntry role entry other := by
        intro entry membership
        obtain ⟨name, isText⟩ := json.key membership
        have entered : (Value.mapping entries).enter? (.text name) = some entry.2 := by
          refine (lookupText_eq_some_iff json.keysDiffer).mpr ?_
          rwa [← isText]
        obtain ⟨other, found⟩ := inductionHypothesis entry membership (maps.enter entered)
        exact ⟨(entry.1, other), rfl, isText ▸ found⟩
      obtain ⟨others, each⟩ := forall₂_exists_iff.mpr each
      exact ⟨_, describeAs_mapping_iff.mpr ⟨others, each, rfl⟩⟩

theorem hasNameMaps_of_describes {value : Value} (json : value.IsJson)
    (found : value.describeAs role = .ok described) : value.HasNameMaps role := by
  intro path part isNames reached
  obtain ⟨other, -, found⟩ := follow?_of_describes json found reached
  rw [isNames] at found
  cases part with
  | mapping entries => exact ⟨entries, rfl⟩
  | atom | list | tuple | record => nomatch found

/-! ### Only descriptions are added -/

/-- What may be put in at the end of an object: nothing, or its own description for editors to show if there is
none that they show. -/
def IsAddition (entries added : List (Atom × Value)) : Prop :=
  added = [] ∨ ∃ content, lookupText "description" entries = some (.text content) ∧
    lookupText "markdownDescription" entries = none ∧
    added = [(.text "markdownDescription", .text content)]

/-- A value and the same value with descriptions for editors put in. -/
inductive OnlyAdds : Value → Value → Prop
  | atom (a : Atom) : OnlyAdds (.atom a) (.atom a)
  | list {items others : List Value} : items.length = others.length →
      (∀ pair ∈ items.zip others, OnlyAdds pair.1 pair.2) → OnlyAdds (.list items) (.list others)
  | mapping {entries others added : List (Atom × Value)} :
      entries.map Prod.fst = others.map Prod.fst →
      (∀ pair ∈ entries.zip others, OnlyAdds pair.1.2 pair.2.2) → IsAddition entries added →
      OnlyAdds (.mapping entries) (.mapping (others ++ added))

theorem isAddition_added (entries : List (Atom × Value)) : IsAddition entries (role.added entries) := by
  cases role with
  | nameMap => exact .inl rfl
  | schema =>
      rw [SchemaRole.added, withMarkdown]
      split
      next content described lacking => exact .inr ⟨content, described, lacking, rfl⟩
      next => exact .inl rfl

theorem onlyAdds_of_describes {value : Value} (json : value.IsJson)
    (found : value.describeAs role = .ok described) : OnlyAdds value described := by
  induction value, json using jsonInduction generalizing role described with
  | atom a json =>
      obtain ⟨-, rfl⟩ := describeAs_atom_iff.mp found
      exact .atom a
  | list items json inductionHypothesis =>
      obtain ⟨-, others, each, rfl⟩ := describeAs_list_iff.mp found
      obtain ⟨sameLength, each⟩ := List.forall₂_iff_zip.mp each
      refine .list sameLength fun pair paired => ?_
      exact inductionHypothesis _ (List.of_mem_zip paired).1 (each paired)
  | mapping entries json inductionHypothesis =>
      obtain ⟨others, each, rfl⟩ := describeAs_mapping_iff.mp found
      refine .mapping (keys_eq_of_describes each) (fun pair paired => ?_) (isAddition_added entries)
      have found := (List.forall₂_iff_zip.mp each).2 paired
      exact inductionHypothesis _ (List.of_mem_zip paired).1 found.2

/-! ### Describing twice -/

section
variable {entries others : List (Atom × Value)}

theorem isSome_lookupText_of_describes (each : List.Forall₂ (DescribesEntry role) entries others)
    (name : String) : (lookupText name entries).isSome = (lookupText name others).isSome := by
  rw [Bool.eq_iff_iff, isSome_lookupText_iff, isSome_lookupText_iff, keys_eq_of_describes each]

theorem description_of_describes (each : List.Forall₂ (DescribesEntry .schema) entries others)
    {content : String}
    (given : lookupText "description" (others ++ withMarkdown entries []) = some (.text content)) :
    lookupText "description" entries = some (.text content) := by
  have notAdded : lookupText "description" (withMarkdown entries []) = none := by
    unfold withMarkdown
    split <;> rfl
  rw [lookupText_append, notAdded, Option.or_none] at given
  have wasGiven := isSome_lookupText_of_describes each "description"
  rw [given, Option.isSome_some, Option.isSome_iff_exists] at wasGiven
  obtain ⟨inner, wasGiven⟩ := wasGiven
  obtain ⟨other, alsoGiven, found⟩ := lookupText_of_describes each wasGiven
  cases given.symm.trans alsoGiven
  rw [wasGiven, describeAs_text found]

theorem isSome_markdown (each : List.Forall₂ (DescribesEntry .schema) entries others)
    {content : String}
    (given : lookupText "description" (others ++ withMarkdown entries []) = some (.text content)) :
    (lookupText "markdownDescription" (others ++ withMarkdown entries [])).isSome = true := by
  have described := description_of_describes each given
  rw [lookupText_append, Option.isSome_or, ← isSome_lookupText_of_describes each]
  cases editors : lookupText "markdownDescription" entries with
  | some old => rfl
  | none =>
      rw [withMarkdown, described, editors]
      rfl

theorem added_again (each : List.Forall₂ (DescribesEntry role) entries others) :
    role.added (others ++ role.added entries) = [] := by
  cases role with
  | nameMap => rfl
  | schema =>
      rw [SchemaRole.added, SchemaRole.added, withMarkdown]
      split
      next content described lacking =>
          have editors := isSome_markdown each described
          rw [lacking] at editors
          nomatch editors
      next => rfl

end

theorem describes_added (entries : List (Atom × Value)) :
    List.Forall₂ (DescribesEntry role) (role.added entries) (role.added entries) := by
  have addition : IsAddition entries (role.added entries) := isAddition_added entries
  rcases addition with nothing | ⟨content, -, -, mirrored⟩
  · rw [nothing]
    exact .nil
  · rw [mirrored]
    refine .cons ⟨rfl, describeAs_atom_iff.mpr ⟨?_, rfl⟩⟩ .nil
    cases role <;> rfl

theorem describeAs_again {value : Value} (json : value.IsJson)
    (found : value.describeAs role = .ok described) : described.describeAs role = .ok described := by
  induction value, json using jsonInduction generalizing role described with
  | atom a json =>
      obtain ⟨rfl, rfl⟩ := describeAs_atom_iff.mp found
      exact found
  | list items json inductionHypothesis =>
      obtain ⟨rfl, others, each, rfl⟩ := describeAs_list_iff.mp found
      refine describeAs_list_iff.mpr ⟨rfl, others, forall₂_self_of_mem ?_ each, rfl⟩
      exact fun item membership other found => inductionHypothesis item membership found
  | mapping entries json inductionHypothesis =>
      obtain ⟨others, each, rfl⟩ := describeAs_mapping_iff.mp found
      have kept : List.Forall₂ (DescribesEntry role) others others := by
        refine forall₂_self_of_mem (fun entry membership other found => ⟨rfl, ?_⟩) each
        rw [← found.1]
        exact inductionHypothesis entry membership found.2
      have again := List.rel_append kept (describes_added entries)
      exact describeAs_mapping_iff.mpr ⟨_, again, by rw [added_again each, List.append_nil]⟩

/-! ### Schemas and the names of schemas -/

/-- Wherever a schema has a description, editors find one to show. -/
def ShowsDescriptions (node described : Value) : Prop :=
  ∀ path entries, SchemaRole.schema.along path = .schema → node.follow? path = some (.mapping entries) →
    ∃ others, described.follow? path = some (.mapping others) ∧
      ∀ content, lookupText "description" others = some (.text content) →
        (lookupText "markdownDescription" others).isSome = true

/-- Where names are mapped to schemas, they are the same names. -/
def KeepsNames (node described : Value) : Prop :=
  ∀ path entries, SchemaRole.schema.along path = .nameMap → node.follow? path = some (.mapping entries) →
    ∃ others, described.follow? path = some (.mapping others) ∧
      others.map Prod.fst = entries.map Prod.fst

theorem showsDescriptions_of_describe {node described : Value} (json : node.IsJson)
    (found : node.describeAs .schema = .ok described) : ShowsDescriptions node described := by
  intro path entries isSchema reached
  obtain ⟨others, each, alsoReached⟩ := object_of_describes json found reached
  rw [isSchema] at each alsoReached
  exact ⟨_, alsoReached, fun content given => isSome_markdown each given⟩

theorem keepsNames_of_describe {node described : Value} (json : node.IsJson)
    (found : node.describeAs .schema = .ok described) : KeepsNames node described := by
  intro path entries isNames reached
  obtain ⟨others, each, alsoReached⟩ := object_of_describes json found reached
  rw [isNames, SchemaRole.added, List.append_nil] at alsoReached
  exact ⟨others, alsoReached, (keys_eq_of_describes each).symm⟩

/-- Describing a schema adds descriptions for editors and nothing else, and it adds all of them at once. -/
theorem describe_onlyAdds {node : Value} (json : node.IsJson) (maps : node.HasNameMaps .schema) :
    ∃ described, node.describe = .ok described ∧ OnlyAdds node described ∧
      ShowsDescriptions node described ∧ KeepsNames node described ∧
      described.describe = .ok described := by
  obtain ⟨described, found⟩ := exists_describeAs json maps
  exact ⟨described, found, onlyAdds_of_describes json found, showsDescriptions_of_describe json found,
    keepsNames_of_describe json found, describeAs_again json found⟩

/-- A schema with a property that is called like a keyword. -/
def nestedSchema : Value :=
  .mapping [
    (.text "description", .text "An effect."),
    (.text "properties", .mapping [
      (.text "description", .mapping [(.text "description", .text "What it is.")]),
      (.text "properties", .mapping [(.text "properties", .mapping [])])]),
    (.text "anyOf", .list [
      .mapping [
        (.text "markdownDescription", .text "**None.**"),
        (.text "description", .text "None.")]])]

theorem describe_nestedSchema : nestedSchema.IsJson ∧ nestedSchema.HasNameMaps .schema ∧
    ∃ described, nestedSchema.describe = .ok described ∧ OnlyAdds nestedSchema described ∧
      described.describe = .ok described := by
  have json : nestedSchema.IsJson := by decide
  have maps : nestedSchema.HasNameMaps .schema := by
    apply hasNameMaps_of_describes json
    rfl
  obtain ⟨described, found, onlyAdds, -, -, again⟩ := describe_onlyAdds json maps
  exact ⟨json, maps, described, found, onlyAdds, again⟩

end Value

end AnimationGrammar
