import AnimationGrammar.Schema.Catalogue
import AnimationGrammar.Proofs.Schema.Branches
import AnimationGrammar.Proofs.Schema.Descriptions

/-!
Published schemas say what their keywords say.

A published schema is the JSON object that the keywords are written as, with descriptions for editors put
in.  So behind every keyword stands what is shown for its value, and beside the keywords there are only
annotations.  By induction over the keywords, a value follows the object when the keywords hold of it.
-/

namespace AnimationGrammar

open Value

/-! ### What is shown for a value -/

/-- Whether a value is shown for another one: the same, or with descriptions for editors. -/
def Value.ShownAs (raw : Value) (role : SchemaRole) (shown : Value) : Prop :=
  raw = shown ∨ raw.describeAs role = .ok shown

def EntryShownAs (role : SchemaRole) (entry other : Atom × Value) : Prop :=
  entry.1 = other.1 ∧ entry.2.ShownAs (role.enter entry.1) other.2

/-- What may stand at the end of an object that is shown. -/
def SchemaRole.MayAdd (role : SchemaRole) (entries added : List (Atom × Value)) : Prop :=
  added = [] ∨ added = role.added entries

theorem SchemaRole.MayAdd.key {role : SchemaRole} {entries added : List (Atom × Value)}
    (mayAdd : role.MayAdd entries added) {entry : Atom × Value} (inAdded : entry ∈ added) :
    entry.1 = .text "markdownDescription" := by
  rcases mayAdd with rfl | rfl
  · nomatch inAdded
  · cases role with
    | nameMap => nomatch inAdded
    | schema =>
        rw [SchemaRole.added, withMarkdown] at inAdded
        split at inAdded <;> simp_all

namespace Value.ShownAs

variable {role : SchemaRole} {shown : Value}

theorem atom {a : Atom} (shows : (Value.atom a).ShownAs role shown) : shown = .atom a := by
  rcases shows with rfl | found
  · rfl
  · exact (describeAs_atom_iff.mp found).2.symm

theorem list {items : List Value} (shows : (Value.list items).ShownAs role shown) :
    ∃ others, List.Forall₂ (fun item other => item.ShownAs .schema other) items others ∧
      shown = .list others := by
  rcases shows with rfl | found
  · exact ⟨items, List.forall₂_same.mpr fun _ _ => .inl rfl, rfl⟩
  · obtain ⟨-, others, each, rfl⟩ := describeAs_list_iff.mp found
    exact ⟨others, each.imp fun _ _ => .inr, rfl⟩

theorem mapping {entries : List (Atom × Value)} (shows : (Value.mapping entries).ShownAs role shown) :
    ∃ others added, List.Forall₂ (EntryShownAs role) entries others ∧ role.MayAdd entries added ∧
      shown = .mapping (others ++ added) := by
  rcases shows with rfl | found
  · refine ⟨entries, [], ?_, .inl rfl, by rw [List.append_nil]⟩
    exact List.forall₂_same.mpr fun _ _ => ⟨rfl, .inl rfl⟩
  · obtain ⟨others, each, rfl⟩ := describeAs_mapping_iff.mp found
    exact ⟨others, role.added entries, each.imp fun _ _ found => ⟨found.1, .inr found.2⟩, .inr rfl, rfl⟩

theorem texts {texts : List String} (shows : (textsValue texts).ShownAs role shown) :
    shown = textsValue texts := by
  obtain ⟨others, each, rfl⟩ := shows.list
  rw [List.forall₂_map_left_iff] at each
  have same : List.Forall₂ (fun text other => Value.text text = other) texts others :=
    each.imp fun _ _ shows => shows.atom.symm
  rw [← List.forall₂_map_left_iff, List.forall₂_eq_eq_eq] at same
  rw [textsValue, same]

section
variable {entries others : List (Atom × Value)} {name : String}

theorem lookupText_eq_some (shows : (Value.mapping entries).ShownAs role (.mapping others))
    {inner : Value} (given : lookupText name entries = some inner) :
    ∃ other, lookupText name others = some other ∧
      inner.ShownAs (role.enter (.text name)) other := by
  rcases shows with same | found
  · cases same
    exact ⟨inner, given, .inl rfl⟩
  · obtain ⟨described, each, same⟩ := describeAs_mapping_iff.mp found
    cases same
    obtain ⟨other, alsoGiven, found⟩ := lookupText_of_describes each given
    exact ⟨other, by rw [lookupText_append, alsoGiven, Option.some_or], .inr found⟩

theorem lookupText_eq_none (shows : (Value.mapping entries).ShownAs role (.mapping others))
    (apart : name ≠ "markdownDescription") (absent : lookupText name entries = none) :
    lookupText name others = none := by
  obtain ⟨inner, added, each, mayAdd, same⟩ := shows.mapping
  cases same
  rw [lookupText_eq_none_iff] at absent ⊢
  intro entry inOthers
  rcases List.mem_append.mp inOthers with inInner | inAdded
  · obtain ⟨raw, inEntries, sameKey, -⟩ := forall₂_exists_of_mem each.flip inInner
    rw [← sameKey]
    exact absent raw inEntries
  · rw [mayAdd.key inAdded]
    simpa using apart.symm

end

end Value.ShownAs

/-! ### What is shown for a schema -/

namespace Schema

open Dialect

/-- Whether a value is shown for a schema, the keywords of which stand in either order. -/
def IsShown (schema : Schema) (shown : Value) : Prop :=
  ∃ keepOrder, (render keepOrder schema).ShownAs .schema shown

def MemberIsShown (member : String × Schema) (entry : Atom × Value) : Prop :=
  entry.1 = .text member.1 ∧ IsShown member.2 entry.2

/-- Whether a value is shown behind a keyword. -/
def KeywordIsShown (keyword : Keyword) (argument : Value) : Prop :=
  (renderKeyword keyword).ShownAs (SchemaRole.schema.enter (.text keyword.name)) argument

/-- Whether some entries are the keywords of a schema, with annotations beside them. -/
structure IsWritten (schema : Schema) (entries : List (Atom × Value)) : Prop where
  isGiven : ∀ keyword ∈ schema, ∃ argument, (.text keyword.name, argument) ∈ entries ∧
    KeywordIsShown keyword argument
  isKnown : ∀ entry ∈ entries,
    (∃ keyword ∈ schema, entry.1 = .text keyword.name ∧ KeywordIsShown keyword entry.2) ∨
      ∃ name ∈ annotations, entry.1 = .text name

theorem renderAll_eq (schemas : List Schema) : renderAll schemas = schemas.map (render false) := by
  induction schemas with
  | nil => rw [renderAll, List.map_nil]
  | cons schema rest inductionHypothesis =>
      rw [renderAll, inductionHypothesis, List.map_cons]

theorem renderProperties_eq (schemas : List (String × Schema)) :
    renderProperties schemas =
      schemas.map fun member => (member.1, render (member.1 == "default") member.2) := by
  induction schemas with
  | nil => rw [renderProperties, List.map_nil]
  | cons member rest inductionHypothesis =>
      rcases member with ⟨name, schema⟩
      rw [renderProperties, inductionHypothesis, List.map_cons]

/-- What is shown for an object of the keywords of a schema, and of members that are annotations. -/
theorem isWritten_of_shown {schema : Schema} {members : List (String × Value)} {shown : Value}
    (given : ∀ keyword ∈ schema, (keyword.name, renderKeyword keyword) ∈ members)
    (known : ∀ member ∈ members,
      (∃ keyword ∈ schema, member = (keyword.name, renderKeyword keyword)) ∨ member.1 ∈ annotations)
    (shows : (Value.object members).ShownAs .schema shown) :
    ∃ entries, shown = .mapping entries ∧ schema.IsWritten entries := by
  obtain ⟨others, added, each, mayAdd, rfl⟩ := shows.mapping
  rw [List.forall₂_map_left_iff] at each
  refine ⟨_, rfl, ?_, ?_⟩
  · intro keyword inSchema
    obtain ⟨⟨key, argument⟩, inOthers, sameKey, shows⟩ :=
      forall₂_exists_of_mem each (given keyword inSchema)
    cases sameKey
    exact ⟨argument, List.mem_append_left added inOthers, shows⟩
  · intro entry inEntries
    rcases List.mem_append.mp inEntries with inOthers | inAdded
    · obtain ⟨member, inMembers, sameKey, shows⟩ := forall₂_exists_of_mem each.flip inOthers
      rcases known member inMembers with ⟨keyword, inSchema, rfl⟩ | noted
      · exact .inl ⟨keyword, inSchema, sameKey.symm, shows⟩
      · exact .inr ⟨member.1, noted, sameKey.symm⟩
    · exact .inr ⟨_, by decide, mayAdd.key inAdded⟩

/-- What is shown for a schema is an object of its keywords. -/
theorem IsShown.isWritten {schema : Schema} {shown : Value} (shows : schema.IsShown shown) :
    ∃ entries, shown = .mapping entries ∧ schema.IsWritten entries := by
  obtain ⟨keepOrder, shows⟩ := shows
  have members : ∃ members : List (String × Value), members.Perm (renderKeywords schema) ∧
      render keepOrder schema = .object members := by
    rw [render, arrange]
    cases keepOrder with
    | true => exact ⟨_, .rfl, rfl⟩
    | false => exact ⟨_, sortByName_perm _, rfl⟩
  obtain ⟨members, perm, rendered⟩ := members
  rw [rendered] at shows
  rw [renderKeywords_eq] at perm
  apply isWritten_of_shown ?_ ?_ shows
  · intro keyword inSchema
    rw [perm.mem_iff]
    exact List.mem_map_of_mem inSchema
  · intro member inMembers
    rw [perm.mem_iff] at inMembers
    obtain ⟨keyword, inSchema, rfl⟩ := List.mem_map.mp inMembers
    exact .inl ⟨keyword, inSchema, rfl⟩

theorem shown_renderAll {schemas : List Schema} {role : SchemaRole} {shown : Value}
    (shows : (Value.list (renderAll schemas)).ShownAs role shown) :
    ∃ others, shown = .list others ∧ List.Forall₂ IsShown schemas others := by
  obtain ⟨others, each, rfl⟩ := shows.list
  rw [renderAll_eq, List.forall₂_map_left_iff] at each
  exact ⟨others, rfl, each.imp fun _ _ shows => ⟨false, shows⟩⟩

/-- What is shown for schemas under names. -/
theorem shown_members {keepOrder : String → Bool} {members : List (String × Schema)} {shown : Value}
    (shows : (Value.object (members.map fun member =>
      (member.1, render (keepOrder member.1) member.2))).ShownAs .nameMap shown) :
    ∃ others, shown = .mapping others ∧ List.Forall₂ MemberIsShown members others := by
  obtain ⟨others, added, each, mayAdd, rfl⟩ := shows.mapping
  have nothing : added = [] := by
    rcases mayAdd with rfl | rfl <;> rfl
  rw [List.map_map, List.forall₂_map_left_iff] at each
  refine ⟨others, by rw [nothing, List.append_nil], each.imp fun member other shows => ?_⟩
  exact ⟨shows.1.symm, keepOrder member.1, shows.2⟩

/-! ### Keywords that speak of others -/

section
variable {schema : Schema} {entries : List (Atom × Value)}

theorem mem_listedProperties_iff {name : String} :
    name ∈ listedProperties schema ↔
      ∃ members, Keyword.properties members ∈ schema ∧ name ∈ members.map Prod.fst := by
  induction schema with
  | nil => simp [listedProperties]
  | cons keyword rest inductionHypothesis =>
      cases keyword <;> simp [listedProperties, inductionHypothesis, or_and_right, exists_or]

theorem prefixLength_le_iff {position : Nat} :
    prefixLength schema ≤ position ↔
      ∀ schemas, Keyword.prefixItems schemas ∈ schema → schemas.length ≤ position := by
  induction schema with
  | nil => simp [prefixLength]
  | cons keyword rest inductionHypothesis =>
      cases keyword <;> simp [prefixLength, inductionHypothesis, or_imp, forall_and]

theorem eq_properties {keyword : Keyword} (named : keyword.name = "properties") :
    ∃ members, keyword = .properties members := by
  cases keyword <;> simp [Keyword.name] at named ⊢

theorem eq_prefixItems {keyword : Keyword} (named : keyword.name = "prefixItems") :
    ∃ schemas, keyword = .prefixItems schemas := by
  cases keyword <;> simp [Keyword.name] at named ⊢

theorem shown_properties {members : List (String × Schema)} {shown : Value}
    (shows : KeywordIsShown (.properties members) shown) :
    ∃ others, shown = .mapping others ∧ List.Forall₂ MemberIsShown members others := by
  have role : SchemaRole.schema.enter (.text "properties") = .nameMap := by decide
  rw [KeywordIsShown, renderKeyword, renderProperties_eq, Keyword.name, role] at shows
  exact @shown_members (· == "default") members shown shows

theorem shown_prefixItems {schemas : List Schema} {shown : Value}
    (shows : KeywordIsShown (.prefixItems schemas) shown) :
    ∃ others, shown = .list others ∧ List.Forall₂ IsShown schemas others := by
  rw [KeywordIsShown, renderKeyword] at shows
  exact shown_renderAll shows

theorem IsWritten.keyword_of_mem (written : schema.IsWritten entries) {name : String}
    {argument : Value} (spoken : name ∉ annotations)
    (inEntries : (Atom.text name, argument) ∈ entries) :
    ∃ keyword ∈ schema, keyword.name = name ∧ KeywordIsShown keyword argument := by
  rcases written.isKnown _ inEntries with ⟨keyword, inSchema, same, shows⟩ | ⟨other, silent, same⟩
  · cases same
    exact ⟨keyword, inSchema, rfl, shows⟩
  · cases same
    exact absurd silent spoken

theorem IsWritten.lists_iff (written : schema.IsWritten entries) {key : Atom} :
    Lists entries key ↔ ∃ name ∈ listedProperties schema, key = .text name := by
  simp only [mem_listedProperties_iff]
  constructor
  · rintro ⟨shown, inner, inEntries, inShown⟩
    obtain ⟨keyword, inSchema, named, shows⟩ := written.keyword_of_mem (by decide) inEntries
    obtain ⟨members, rfl⟩ := eq_properties named
    obtain ⟨others, same, each⟩ := shown_properties shows
    cases same
    obtain ⟨member, inMembers, sameKey, -⟩ := forall₂_exists_of_mem each.flip inShown
    exact ⟨member.1, ⟨members, inSchema, List.mem_map_of_mem inMembers⟩, sameKey⟩
  · rintro ⟨_, ⟨members, inSchema, inNames⟩, rfl⟩
    obtain ⟨member, inMembers, rfl⟩ := List.mem_map.mp inNames
    obtain ⟨argument, inEntries, shows⟩ := written.isGiven _ inSchema
    obtain ⟨others, rfl, each⟩ := shown_properties shows
    obtain ⟨⟨key, inner⟩, inOthers, sameKey, -⟩ := forall₂_exists_of_mem each inMembers
    cases sameKey
    exact ⟨others, inner, inEntries, inOthers⟩

theorem IsWritten.isBehindPrefix_iff (written : schema.IsWritten entries) {position : Nat} :
    IsBehindPrefix entries position ↔ prefixLength schema ≤ position := by
  rw [prefixLength_le_iff]
  constructor
  · intro behind schemas inSchema
    obtain ⟨argument, inEntries, shows⟩ := written.isGiven _ inSchema
    obtain ⟨others, rfl, each⟩ := shown_prefixItems shows
    rw [each.length_eq]
    exact behind others inEntries
  · intro behind others inEntries
    obtain ⟨keyword, inSchema, named, shows⟩ := written.keyword_of_mem (by decide) inEntries
    obtain ⟨schemas, rfl⟩ := eq_prefixItems named
    obtain ⟨_, same, each⟩ := shown_prefixItems shows
    cases same
    rw [← each.length_eq]
    exact behind schemas inSchema

end

/-! ### One keyword -/

/-- Whether everything that is shown for a schema says what the schema says. -/
def IsRead (meaning : Meaning) (schema : Schema) : Prop :=
  ∀ shown, schema.IsShown shown → Follows meaning shown = Holds meaning schema

/-- Whether a keyword, among others that are written with it, says what is shown behind it. -/
def KeywordIsRead (meaning : Meaning) (keyword : Keyword) : Prop :=
  ∀ (schema : Schema) (entries : List (Atom × Value)) (argument value : Value),
    schema.IsWritten entries → KeywordIsShown keyword argument →
      ((Argument.of meaning argument).Holds meaning entries value keyword.name ↔
        KeywordHolds meaning schema value keyword)

/-- The schemas inside of a keyword. -/
def keywordParts : Keyword → List Schema
  | .items schema => [schema]
  | .prefixItems schemas => schemas
  | .properties members => members.map Prod.snd
  | .additionalProperties schema => [schema]
  | .propertyNames schema => [schema]
  | .oneOf schemas => schemas
  | .anyOf schemas => schemas
  | .not schema => [schema]
  | _ => []

section
variable {meaning : Meaning}

theorem listed_of_shown {schemas : List Schema} {others : List Value}
    (read : ∀ schema ∈ schemas, schema.IsRead meaning)
    (each : List.Forall₂ IsShown schemas others) :
    listed meaning (.list others) = properties meaning schemas := by
  rw [listed]
  induction each with
  | nil => rw [Dialect.properties, properties]
  | cons shows _ inductionHypothesis =>
      rw [List.forall_mem_cons] at read
      rw [Dialect.properties, properties, read.1 _ shows, inductionHypothesis read.2]
      rfl

theorem named_of_shown {members : List (String × Schema)} {others : List (Atom × Value)}
    (read : ∀ member ∈ members, member.2.IsRead meaning)
    (each : List.Forall₂ MemberIsShown members others) :
    named meaning (.mapping others) =
      (namedProperties meaning members).map fun member => (.text member.1, member.2) := by
  rw [named]
  induction each with
  | nil => rw [Dialect.namedProperties, namedProperties, List.map_nil]
  | @cons member other _ _ shows _ inductionHypothesis =>
      rcases member with ⟨name, schema⟩
      rcases other with ⟨key, shown⟩
      obtain ⟨rfl, shows⟩ := shows
      rw [List.forall_mem_cons] at read
      rw [Dialect.namedProperties, namedProperties, read.1 _ shows, inductionHypothesis read.2]
      rfl

theorem shown_namedTexts {name : String} {texts : List String} {role : SchemaRole} {shown : Value}
    (shows : (Value.object [(name, textsValue texts)]).ShownAs role shown) :
    shown = .object [(name, textsValue texts)] := by
  obtain ⟨others, added, each, mayAdd, rfl⟩ := shows.mapping
  have nothing : added = [] := by
    rcases mayAdd with rfl | rfl
    · rfl
    · cases role with
      | nameMap => rfl
      | schema =>
          by_cases described : name = "description" <;>
            simp [SchemaRole.added, withMarkdown, lookupText, textsValue, described]
  cases each with
  | @cons _ other _ _ first rest =>
      rcases other with ⟨key, inner⟩
      obtain ⟨rfl, alike⟩ := first
      cases rest
      have same : inner = textsValue texts := alike.texts
      rw [nothing, same]
      rfl

theorem forall_getElem?_iff {items : List Value} {start : Nat} {property : Value → Prop} :
    (∀ position item, items[position]? = some item → start ≤ position → property item) ↔
      ∀ item ∈ items.drop start, property item := by
  simp only [List.mem_iff_getElem?, List.getElem?_drop]
  constructor
  · rintro each item ⟨position, found⟩
    exact each _ item found (Nat.le_add_right start position)
  · intro each position item found behind
    exact each item ⟨position - start, by rwa [Nat.add_sub_cancel' behind]⟩

theorem keywordIsRead_of_parts {keyword : Keyword}
    (read : ∀ schema ∈ keywordParts keyword, schema.IsRead meaning) :
    KeywordIsRead meaning keyword := by
  intro schema entries argument value written shows
  cases keyword with
  | type | const | minimum | maximum | exclusiveMinimum | exclusiveMaximum | minLength | minItems
  | maxItems | uniqueItems | minProperties =>
      rw [KeywordIsShown, renderKeyword] at shows
      obtain rfl := shows.atom
      simp [Argument.of, Argument.Holds, KeywordHolds, Keyword.name]
  | discriminator | title | description | defaultNull =>
      simp [Argument.Holds, KeywordHolds, Keyword.name, annotations]
  | ref name =>
      rw [KeywordIsShown, renderKeyword] at shows
      obtain rfl := shows.atom
      simp [Argument.of, Argument.Holds, KeywordHolds, Keyword.name, definitionPath]
  | pattern format =>
      rw [KeywordIsShown, renderKeyword] at shows
      obtain rfl := shows.atom
      simp [Argument.of, Argument.Holds, KeywordHolds, Keyword.name, TextFormat.accepts_iff]
  | enum choices =>
      rw [KeywordIsShown, renderKeyword] at shows
      obtain rfl := shows.texts
      simp [Argument.of, Argument.Holds, KeywordHolds, Keyword.name, textsValue]
  | required names =>
      rw [KeywordIsShown, renderKeyword] at shows
      obtain rfl := shows.texts
      simp [Argument.of, Argument.Holds, KeywordHolds, Keyword.name, textsValue, HasKey]
  | dependentRequired name others =>
      rw [KeywordIsShown, renderKeyword] at shows
      obtain rfl := shown_namedTexts shows
      simp [Argument.of, Argument.Holds, KeywordHolds, Keyword.name, textsValue, HasKey, Value.object]
  | items inner =>
      rw [KeywordIsShown, renderKeyword] at shows
      have same := read inner List.mem_cons_self argument ⟨false, shows⟩
      simp only [Argument.of, Argument.Holds, KeywordHolds, Keyword.name, same,
        written.isBehindPrefix_iff, forall_getElem?_iff]
      rfl
  | prefixItems schemas =>
      obtain ⟨others, rfl, each⟩ := shown_prefixItems shows
      have same : listed meaning (.list others) = properties meaning schemas :=
        listed_of_shown read each
      simp only [Argument.of, Argument.Holds, KeywordHolds, Keyword.name, same]
  | oneOf schemas | anyOf schemas =>
      rw [KeywordIsShown, renderKeyword] at shows
      obtain ⟨others, rfl, each⟩ := shown_renderAll shows
      have same : listed meaning (.list others) = properties meaning schemas :=
        listed_of_shown read each
      simp only [Argument.of, Argument.Holds, KeywordHolds, Keyword.name, same]
  | properties members =>
      obtain ⟨others, rfl, each⟩ := shown_properties shows
      rw [keywordParts, List.forall_mem_map] at read
      simp only [Argument.of, Argument.Holds, KeywordHolds, Keyword.name, named_of_shown read each,
        List.forall_mem_map, Atom.text.injEq, exists_eq_left']
  | noOtherProperties =>
      rw [KeywordIsShown, renderKeyword] at shows
      obtain rfl := shows.atom
      simp [Argument.of, Argument.Holds, KeywordHolds, Keyword.name, Follows, written.lists_iff]
  | additionalProperties inner =>
      rw [KeywordIsShown, renderKeyword] at shows
      have same := read inner List.mem_cons_self argument ⟨false, shows⟩
      simp only [Argument.of, Argument.Holds, KeywordHolds, Keyword.name, same, written.lists_iff,
        not_exists, not_and]
      rfl
  | propertyNames inner | not inner =>
      rw [KeywordIsShown, renderKeyword] at shows
      have same := read inner List.mem_cons_self argument ⟨false, shows⟩
      simp only [Argument.of, Argument.Holds, KeywordHolds, Keyword.name, same]
      rfl

end

/-! ### Whole schemas -/

/-- A keyword is larger than those of the schemas inside of it. -/
theorem keywordInduction {motive : Keyword → Prop}
    (step : ∀ keyword, (∀ schema ∈ keywordParts keyword, ∀ inner ∈ schema, motive inner) →
      motive keyword) (keyword : Keyword) : motive keyword := by
  apply step
  intro schema inParts inner inSchema
  exact keywordInduction step inner
termination_by sizeOf keyword
decreasing_by
  have smaller := List.sizeOf_lt_of_mem inSchema
  cases keyword with
  | items | additionalProperties | propertyNames | not =>
      cases List.mem_singleton.mp inParts
      simp
      omega
  | prefixItems schemas | oneOf schemas | anyOf schemas =>
      have inSchemas : sizeOf schema < sizeOf schemas := List.sizeOf_lt_of_mem inParts
      simp
      omega
  | properties members =>
      obtain ⟨⟨name, schema⟩, inMembers, rfl⟩ := List.mem_map.mp inParts
      have inMembers := List.sizeOf_lt_of_mem inMembers
      simp at inMembers smaller ⊢
      omega
  | _ => nomatch inParts

section
variable {meaning : Meaning}

theorem allFollowed_iff {siblings entries : List (Atom × Value)} {value : Value} :
    AllFollowed meaning siblings value entries ↔ ∀ entry ∈ entries, ∃ name, entry.1 = .text name ∧
      (Argument.of meaning entry.2).Holds meaning siblings value name := by
  induction entries with
  | nil => simp [AllFollowed]
  | cons entry rest inductionHypothesis =>
      rw [AllFollowed, inductionHypothesis, List.forall_mem_cons]
      rfl

theorem holds_annotation {argument : Argument} {siblings : List (Atom × Value)} {value : Value}
    {name : String} (noted : name ∈ annotations) :
    argument.Holds meaning siblings value name := by
  simp only [annotations, List.mem_cons, List.not_mem_nil, or_false] at noted
  rcases noted with rfl | rfl | rfl | rfl | rfl | rfl | rfl <;>
    simp [Argument.Holds, annotations]

/-- Entries that are written for a schema are followed when its keywords hold. -/
theorem IsWritten.follows_eq {schema : Schema} {entries : List (Atom × Value)}
    (written : schema.IsWritten entries) (read : ∀ keyword ∈ schema, KeywordIsRead meaning keyword) :
    Follows meaning (.mapping entries) = Holds meaning schema := by
  funext value
  rw [Follows, allFollowed_iff, holds_iff, eq_iff_iff]
  constructor
  · intro followed keyword inSchema
    obtain ⟨argument, inEntries, shows⟩ := written.isGiven keyword inSchema
    obtain ⟨name, same, holds⟩ := followed _ inEntries
    cases same
    exact (read keyword inSchema schema entries argument value written shows).mp holds
  · intro holds entry inEntries
    rcases written.isKnown entry inEntries with ⟨keyword, inSchema, same, shows⟩ | ⟨name, silent, same⟩
    · refine ⟨keyword.name, same, ?_⟩
      exact (read keyword inSchema schema entries _ value written shows).mpr (holds keyword inSchema)
    · exact ⟨name, same, holds_annotation silent⟩

theorem IsWritten.cons {schema : Schema} {entries : List (Atom × Value)} {name : String}
    {argument : Value} (written : schema.IsWritten entries) (noted : name ∈ annotations) :
    schema.IsWritten ((.text name, argument) :: entries) := by
  constructor
  · intro keyword inSchema
    obtain ⟨argument, inEntries, shows⟩ := written.isGiven keyword inSchema
    exact ⟨argument, List.mem_cons_of_mem _ inEntries, shows⟩
  · rw [List.forall_mem_cons]
    exact ⟨.inr ⟨name, noted, rfl⟩, written.isKnown⟩

theorem isRead_of_keywords {schema : Schema}
    (read : ∀ keyword ∈ schema, KeywordIsRead meaning keyword) : schema.IsRead meaning := by
  intro shown shows
  obtain ⟨entries, rfl, written⟩ := shows.isWritten
  exact written.follows_eq read

theorem keywordIsRead (keyword : Keyword) : KeywordIsRead meaning keyword := by
  induction keyword using keywordInduction with
  | step keyword inductionHypothesis =>
      apply keywordIsRead_of_parts
      intro schema inParts
      exact isRead_of_keywords (inductionHypothesis schema inParts)

/-- What is shown for a schema says what the schema says. -/
theorem isRead (schema : Schema) : schema.IsRead meaning :=
  isRead_of_keywords fun keyword _ => keywordIsRead keyword

theorem lookupText_shown_iff {members : List (String × Schema)} {others : List (Atom × Value)}
    (each : List.Forall₂ MemberIsShown members others) {name : String} {value : Value} :
    (∃ shown, lookupText name others = some shown ∧ Follows meaning shown value) ↔
      ∃ schema, members.lookup name = some schema ∧ Holds meaning schema value := by
  induction each with
  | nil => simp [lookupText]
  | @cons member other _ _ shows _ inductionHypothesis =>
      rcases member with ⟨label, schema⟩
      rcases other with ⟨key, shown⟩
      obtain ⟨rfl, shows⟩ := shows
      rw [lookupText, List.lookup_cons]
      by_cases same : label = name
      · simp [same, isRead schema shown shows]
      · have apart : (name == label) = false := by simpa using Ne.symm same
        simp only [apart, Atom.text.injEq, same, if_false, inductionHypothesis]

end

end Schema

/-! ### Documents -/

namespace SchemaDocument

section
variable {document : SchemaDocument}

theorem mem_members_iff {member : String × Value} :
    member ∈ document.members ↔
      (document.definitions ≠ [] ∧ member = ("$defs", .object
        (document.definitions.map fun (name, schema) => (name, Schema.render false schema)))) ∨
      ∃ keyword ∈ document.root, member = (keyword.name, Schema.renderKeyword keyword) := by
  rw [members, List.mem_append, (sortByName_perm _).mem_iff, Schema.renderKeywords_eq, List.mem_map]
  cases document.definitions <;> simp [eq_comm]

/-- The definitions stand under their name, if there are any. -/
theorem lookupText_members :
    lookupText "$defs" (document.members.map fun (name, value) => (Atom.text name, value)) =
      if document.definitions.isEmpty then none
      else some (.object
        (document.definitions.map fun (name, schema) => (name, Schema.render false schema))) := by
  rw [members, List.map_append, lookupText_append]
  have absent : lookupText "$defs" ((sortByName (Schema.renderKeywords document.root)).map
      fun (name, value) => (Atom.text name, value)) = none := by
    rw [lookupText_eq_none_iff, List.forall_mem_map]
    intro member inMembers
    rw [(sortByName_perm _).mem_iff, Schema.renderKeywords_eq] at inMembers
    obtain ⟨keyword, -, rfl⟩ := List.mem_map.mp inMembers
    cases keyword <;> simp [Keyword.name]
  rw [absent]
  split <;> simp [lookupText]

end

end SchemaDocument

namespace Form

variable {form : Form} {meaning : Meaning} {value : Value}

theorem publishedSchema_shown (form : Form) : ∃ entries,
    form.publishedSchema =
        .mapping ((.text "$schema", .text SchemaDocument.dialect) :: entries) ∧
      (Value.object (SchemaDocument.ofForm form).members).ShownAs .schema (.mapping entries) := by
  rw [publishedSchema]
  cases found : (Value.object (SchemaDocument.ofForm form).members).describe with
  | error failure => exact ⟨_, rfl, .inl rfl⟩
  | ok described =>
      obtain ⟨others, each, rfl⟩ := (@describeAs_mapping_iff .schema _ _).mp found
      exact ⟨_, rfl, .inr found⟩

theorem follows_publishedSchema : Dialect.Follows meaning form.publishedSchema =
    Schema.Holds meaning (SchemaDocument.ofForm form).root := by
  obtain ⟨entries, published, shows⟩ := form.publishedSchema_shown
  have known : ∀ member ∈ (SchemaDocument.ofForm form).members,
      (∃ keyword ∈ (SchemaDocument.ofForm form).root,
        member = (keyword.name, Schema.renderKeyword keyword)) ∨ member.1 ∈ Dialect.annotations := by
    intro member inMembers
    have noted : "$defs" ∈ Dialect.annotations := by decide
    rcases SchemaDocument.mem_members_iff.mp inMembers with ⟨-, rfl⟩ | keyword
    · exact .inr noted
    · exact .inl keyword
  obtain ⟨_, same, written⟩ := Schema.isWritten_of_shown
    (fun keyword inRoot => SchemaDocument.mem_members_iff.mpr (.inr ⟨keyword, inRoot, rfl⟩)) known shows
  cases same
  rw [published]
  exact (written.cons (by decide)).follows_eq fun keyword _ => Schema.keywordIsRead keyword

theorem definition?_publishedSchema {name : String} :
    (∃ schema, form.publishedSchema.definition? name = some schema ∧
      Dialect.Follows meaning schema value) ↔
      ∃ schema, (SchemaDocument.ofForm form).definitions.lookup name = some schema ∧
        Schema.Holds meaning schema value := by
  obtain ⟨entries, published, shows⟩ := form.publishedSchema_shown
  have looked := (SchemaDocument.ofForm form).lookupText_members
  have defined : form.publishedSchema.get? "$defs" = lookupText "$defs" entries := by
    rw [published, Value.get?, lookupText, if_neg (by decide)]
  rw [Value.definition?, defined]
  split at looked
  next none =>
      rw [shows.lookupText_eq_none (by decide) looked, List.isEmpty_iff.mp none]
      simp
  next =>
      obtain ⟨other, given, shows⟩ := shows.lookupText_eq_some looked
      obtain ⟨others, rfl, each⟩ := @Schema.shown_members (fun _ => false) _ _ shows
      rw [given, Option.bind_some, Value.get?]
      exact Schema.lookupText_shown_iff each

theorem explains_publishedSchema_iff :
    form.publishedSchema.Explains meaning ↔ (SchemaDocument.ofForm form).Explains meaning :=
  forall₃_congr fun _ _ _ => by rw [definition?_publishedSchema]

/-- A value follows a published schema when the keywords accept it that the schema is written from. -/
theorem isFollowedBy_publishedSchema_iff :
    form.publishedSchema.IsFollowedBy value ↔ (SchemaDocument.ofForm form).Accepts value := by
  simp only [Value.IsFollowedBy, SchemaDocument.Accepts, explains_publishedSchema_iff,
    follows_publishedSchema]

end Form

end AnimationGrammar
