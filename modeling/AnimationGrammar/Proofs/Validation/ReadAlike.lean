import AnimationGrammar.Proofs.Grammar.Labels
import AnimationGrammar.Proofs.Validation.Results
import AnimationGrammar.Proofs.Value.Invariant

/-!
Values that validation reads alike.

`ReadAlike` compares two values as validation understands them: numbers by their roundings, flags not at
all, objects by the keys that their model knows and that are not null.  The main statement is that two
values which pass a form become values with one canonical text exactly when they are read alike.
-/

namespace AnimationGrammar

open Value

/-- Whether a key is given with something other than null. -/
def IsFilled (entries : List (Atom × Value)) (name : String) : Prop :=
  ∃ value, lookupText name entries = some value ∧ value ≠ .null

theorem isFilled_iff {entries : List (Atom × Value)} {name : String} {value : Value}
    (given : lookupText name entries = some value) : IsFilled entries name ↔ value ≠ .null := by
  simp [IsFilled, given]

theorem not_isFilled {entries : List (Atom × Value)} {name : String}
    (absent : lookupText name entries = none) : ¬ IsFilled entries name := by
  simp [IsFilled, absent]

/-- Two values that a form does not tell apart. -/
inductive ReadAlike : Form → Value → Value → Prop
  | branch {dispatch branches label form a b} : dispatch.label? a = some label →
      dispatch.label? b = some label → branches.lookup label = some form → ReadAlike form a b →
      ReadAlike (.choice dispatch branches) a b
  | text {rule content} : ReadAlike (.text rule) (.text content) (.text content)
  | number {rule} {n m : Numeral} {x y : Double} : n.toDouble? = some x → m.toDouble? = some y →
      x.isEqual y = true → ReadAlike (.number rule) (.number n) (.number m)
  | literal {choices content} : ReadAlike (.literal choices) (.text content) (.text content)
  | flag {a b} : ReadAlike .flag a b
  | anyJson {a b} : Similar a b → ReadAlike .anyJson a b
  | tuple {positions distinct} {xs ys : List Value} : xs.length = ys.length →
      (∀ (i : Nat) form x y, positions[i]? = some form → xs[i]? = some x → ys[i]? = some y →
        ReadAlike form x y) →
      ReadAlike (.tuple positions distinct) (.list xs) (.list ys)
  | list {item minLength unique} {xs ys : List Value} : xs.length = ys.length →
      (∀ pair ∈ xs.zip ys, ReadAlike item pair.1 pair.2) →
      ReadAlike (.list item minLength unique) (.list xs) (.list ys)
  | dictionary {key item xs ys} :
      (∀ name, (lookupText name xs).isSome = (lookupText name ys).isSome) →
      (∀ name x y, lookupText name xs = some x → lookupText name ys = some y →
        ReadAlike item x y) →
      ReadAlike (.dictionary key item) (.mapping xs) (.mapping ys)
  | model {name : ModelName} {xs ys} :
      (∀ field ∈ name.definition.fields, IsFilled xs field.name ↔ IsFilled ys field.name) →
      (∀ field ∈ name.definition.fields, ∀ x y, lookupText field.name xs = some x →
        lookupText field.name ys = some y → ReadAlike field.form x y) →
      ReadAlike (.model name) (.mapping xs) (.mapping ys)

/-! ### Labels are seen from the texts of results -/

theorem Field.written_resultText (entries : List (Atom × Value)) (field : Field) :
    Written (field.resultText entries).toList := by
  rw [resultText]
  cases lookupText field.name entries with
  | none => exact written_canonicalText .null
  | some value => exact written_canonicalText _

theorem written_resultTexts (entries : List (Atom × Value)) (fields : List Field) :
    ∀ member ∈ fields.map fun field => (field.name, field.resultText entries),
      Written member.2.toList := by
  rw [List.forall_mem_map]
  exact fun field _ => field.written_resultText entries

theorem field_of_record_text {xs ys : List (Atom × Value)} {fields others : List Field}
    (same : canonicalObject (fields.map fun field => (field.name, field.resultText xs)) =
      canonicalObject (others.map fun field => (field.name, field.resultText ys))) :
    ∀ field ∈ fields, ∃ like ∈ others, like.name = field.name ∧
      like.resultText ys = field.resultText xs := by
  intro field membership
  have found := (mem_iff_of_canonicalObject (written_resultTexts xs fields)
    (written_resultTexts ys others) same _).mp (List.mem_map_of_mem membership)
  obtain ⟨like, inOthers, equality⟩ := List.mem_map.mp found
  rw [Prod.mk.injEq] at equality
  exact ⟨like, inOthers, equality⟩

theorem filterType_text {xs : List (Atom × Value)} {label : String} {name : ModelName}
    (filter : (label, name) ∈ filterModels)
    (admits : Admits .validation (.model name) (.mapping xs)) :
    (filterTypeField label).resultText xs = (Value.text label).canonicalText := by
  have declared := filterType_field filter
  obtain ⟨⟨_, same, fits⟩, _⟩ := (admits_whole_iff rfl).mp admits
  cases same
  obtain ⟨type, given⟩ := Option.isSome_iff_exists.mp (fits.given _ declared rfl)
  obtain ⟨⟨content, chosen, rfl⟩, _⟩ := (admits_whole_iff rfl).mp (admits.field declared given)
  rw [List.mem_singleton.mp chosen] at given
  rw [Field.resultText, given, Option.map_some, Option.getD_some,
    filterTypeField, checked_literal List.mem_cons_self]

section
variable {a b : Value} (first : a.IsJson) (second : b.IsJson)
include first second

theorem kind_eq_of_text {form other : Form} {kind otherKind : Kind}
    (kinds : form.kindOf? = some kind) (otherKinds : other.kindOf? = some otherKind)
    (regular : form.isRegular = true) (otherRegular : other.isRegular = true)
    (admits : Admits .validation form a) (otherAdmits : Admits .validation other b)
    (same : (a.checked form).canonicalText = (b.checked other).canonicalText) :
    kind = otherKind := by
  obtain ⟨_, yields⟩ := admits.settled first (Form.isUniform_of_isRegular regular)
  obtain ⟨_, otherYields⟩ := otherAdmits.settled second (Form.isUniform_of_isRegular otherRegular)
  have sameKind := (yields.hasKind first).kind?_congr (otherYields.hasKind second) same
  rw [admits.checked_kind? first regular kinds,
    otherAdmits.checked_kind? second otherRegular otherKinds, Option.some.injEq] at sameKind
  exact sameKind

theorem operator_eq_of_text {name other : ModelName} (predicate : name ∈ Form.predicateModels)
    (otherPredicate : other ∈ Form.predicateModels) (admits : Admits .validation (.model name) a)
    (otherAdmits : Admits .validation (.model other) b)
    (same : (a.checked (.model name)).canonicalText = (b.checked (.model other)).canonicalText) :
    name = other := by
  obtain ⟨⟨xs, rfl, fits⟩, _⟩ := (admits_whole_iff rfl).mp admits
  obtain ⟨⟨ys, rfl, _⟩, _⟩ := (admits_whole_iff rfl).mp otherAdmits
  rw [admits.record_text first, otherAdmits.record_text second] at same
  obtain ⟨_, required, operators⟩ := operator_fields name predicate
  obtain ⟨field, inFields, _⟩ := List.any_eq_true.mp required
  obtain ⟨like, inOthers, sameName, _⟩ := field_of_record_text same field inFields
  have operator := operators field.name (Definition.mem_fieldNames inFields)
  have otherOperator := (operator_fields other otherPredicate).2.2 like.name
    (Definition.mem_fieldNames inOthers)
  rw [sameName, operator, Option.some.injEq] at otherOperator
  exact otherOperator

theorem filter_eq_of_text {label otherLabel : String} {name other : ModelName}
    (filter : (label, name) ∈ filterModels) (otherFilter : (otherLabel, other) ∈ filterModels)
    (admits : Admits .validation (.model name) a) (otherAdmits : Admits .validation (.model other) b)
    (same : (a.checked (.model name)).canonicalText = (b.checked (.model other)).canonicalText) :
    label = otherLabel := by
  obtain ⟨⟨xs, rfl, fits⟩, _⟩ := (admits_whole_iff rfl).mp admits
  obtain ⟨⟨ys, rfl, otherFits⟩, _⟩ := (admits_whole_iff rfl).mp otherAdmits
  rw [admits.record_text first, otherAdmits.record_text second] at same
  have declared := filterType_field filter
  have otherDeclared := filterType_field otherFilter
  obtain ⟨like, inOthers, sameName, sameText⟩ := field_of_record_text same _ declared
  obtain rfl := ModelName.field_eq_of_name inOthers otherDeclared sameName
  rw [filterType_text filter admits, filterType_text otherFilter otherAdmits] at sameText
  exact (asciiQuoted_injective sameText).symm

theorem length_eq_of_text {positions others : List Form} {distinct otherDistinct : Bool}
    (admits : Admits .validation (.tuple positions distinct) a)
    (otherAdmits : Admits .validation (.tuple others otherDistinct) b)
    (uniform : (Form.tuple positions distinct).isUniform = true)
    (otherUniform : (Form.tuple others otherDistinct).isUniform = true)
    (same : (a.checked (.tuple positions distinct)).canonicalText =
      (b.checked (.tuple others otherDistinct)).canonicalText) :
    positions.length = others.length := by
  obtain ⟨⟨xs, rfl, length, _⟩, _⟩ := (admits_whole_iff rfl).mp admits
  obtain ⟨⟨ys, rfl, otherLength, _⟩, _⟩ := (admits_whole_iff rfl).mp otherAdmits
  rw [checked_tuple (admits.passes first uniform) length,
    checked_tuple (otherAdmits.passes second otherUniform) otherLength, canonicalText, canonicalText,
    canonicalList_eq_iff (written_canonicalTexts _) (written_canonicalTexts _), canonicalTexts_eq,
    canonicalTexts_eq] at same
  have lengths := congrArg List.length same
  simpa [length, otherLength] using lengths

/-- Results of branches with different labels are written differently. -/
theorem label_eq_of_text {dispatch : Dispatch} {label otherLabel : String} {form other : Form}
    (suits : dispatch.Suits label form) (otherSuits : dispatch.Suits otherLabel other)
    (regular : form.isRegular = true) (otherRegular : other.isRegular = true)
    (admits : Admits .validation form a) (otherAdmits : Admits .validation other b)
    (same : (a.checked form).canonicalText = (b.checked other).canonicalText) :
    label = otherLabel := by
  have kinds {kind otherKind : Kind} (kinds : form.kindOf? = some kind)
      (otherKinds : other.kindOf? = some otherKind) : kind = otherKind :=
    kind_eq_of_text first second kinds otherKinds regular otherRegular admits otherAdmits same
  cases suits with
  | kind isKind =>
      cases otherSuits with
      | kind isOtherKind => rw [kinds isKind isOtherKind]
  | predicate predicate =>
      cases otherSuits with
      | predicate otherPredicate =>
          rw [operator_eq_of_text first second predicate otherPredicate admits otherAdmits same]
      | rollOption => exact absurd (kinds rfl rfl) (by decide)
  | rollOption =>
      cases otherSuits with
      | predicate _ => exact absurd (kinds rfl rfl) (by decide)
      | rollOption => rfl
  | filter filter =>
      cases otherSuits with
      | filter otherFilter =>
          exact filter_eq_of_text first second filter otherFilter admits otherAdmits same
  | length =>
      cases otherSuits with
      | length =>
          rw [length_eq_of_text first second admits otherAdmits regular otherRegular same]

end

/-! ### The texts of parts and of wholes -/

theorem number_text_eq_iff {rule : NumberRule} {n m checked otherChecked : Numeral}
    (first : n.IsOrdered) (second : m.IsOrdered) (accepted : rule.check n = .ok checked)
    (acceptedToo : rule.check m = .ok otherChecked) :
    (Value.number checked).canonicalText = (Value.number otherChecked).canonicalText ↔
      ReadAlike (.number rule) (.number n) (.number m) := by
  obtain ⟨x, rounded, place, _⟩ := NumberRule.check_place accepted
  obtain ⟨y, roundedToo, otherPlace, _⟩ := NumberRule.check_place acceptedToo
  have equal : x.isEqual y = true ↔ checked.place = otherChecked.place := by
    rw [Double.isEqual_eq, Numeral.isEqual_iff (Numeral.toDouble?_isOrdered first rounded)
      (Numeral.toDouble?_isOrdered second roundedToo), place, otherPlace]
  rw [canonicalText, canonicalText, Atom.canonicalText, Atom.canonicalText,
    Numeral.canonicalText_eq_iff (NumberRule.check_isOrdered first accepted)
      (NumberRule.check_isOrdered second acceptedToo), ← equal]
  constructor
  · exact .number rounded roundedToo
  · intro alike
    cases alike with
    | number roundedX roundedY same =>
        rw [rounded, Option.some.injEq] at roundedX
        rw [roundedToo, Option.some.injEq] at roundedY
        rw [roundedX, roundedY, same]

section
variable {xs ys : List Value}

theorem list_text_eq_iff {item : Form} {minLength : Option Nat} {unique : Bool}
    (each : ∀ pair ∈ xs.zip ys, (pair.1.checked item).canonicalText =
      (pair.2.checked item).canonicalText ↔ ReadAlike item pair.1 pair.2) :
    (Value.list (xs.map fun part => part.checked item)).canonicalText =
        (Value.list (ys.map fun part => part.checked item)).canonicalText ↔
      ReadAlike (.list item minLength unique) (.list xs) (.list ys) := by
  rw [canonicalText, canonicalText,
    canonicalList_eq_iff (written_canonicalTexts _) (written_canonicalTexts _), canonicalTexts_eq,
    canonicalTexts_eq, List.map_map, List.map_map, map_eq_map_iff_zip]
  constructor
  · rintro ⟨sameLength, same⟩
    exact .list sameLength fun pair paired => (each pair paired).mp (same pair paired)
  · intro alike
    cases alike with
    | list sameLength alike =>
        exact ⟨sameLength, fun pair paired => (each pair paired).mpr (alike pair paired)⟩

theorem tuple_text_eq_iff {positions : List Form} {distinct : Bool}
    (length : xs.length = positions.length) (otherLength : ys.length = positions.length)
    (each : ∀ (i : Nat) form x y, positions[i]? = some form → xs[i]? = some x → ys[i]? = some y →
      ((x.checked form).canonicalText = (y.checked form).canonicalText ↔ ReadAlike form x y)) :
    (Value.tuple ((xs.zip positions).map fun part => part.1.checked part.2)).canonicalText =
        (Value.tuple ((ys.zip positions).map fun part => part.1.checked part.2)).canonicalText ↔
      ReadAlike (.tuple positions distinct) (.list xs) (.list ys) := by
  rw [canonicalText, canonicalText,
    canonicalList_eq_iff (written_canonicalTexts _) (written_canonicalTexts _), canonicalTexts_eq,
    canonicalTexts_eq, List.map_map, List.map_map]
  constructor
  · intro same
    refine .tuple (length.trans otherLength.symm) fun i form x y position first second => ?_
    have here := congrArg (fun texts : List String => texts[i]?) same
    have inFirst := List.getElem?_zip_eq_some (z := (x, form)).mpr ⟨first, position⟩
    have inSecond := List.getElem?_zip_eq_some (z := (y, form)).mpr ⟨second, position⟩
    simp only [List.getElem?_map, inFirst, inSecond, Option.map_some, Option.some.injEq] at here
    exact (each i form x y position first second).mp here
  · intro alike
    cases alike with
    | tuple sameLength alike =>
        refine List.ext_getElem (by simp [length, otherLength]) fun i inFirst inSecond => ?_
        simp only [List.length_map, List.length_zip, lt_min_iff] at inFirst inSecond
        have position := List.getElem?_eq_getElem inFirst.2
        have first := List.getElem?_eq_getElem inFirst.1
        have second := List.getElem?_eq_getElem inSecond.1
        simp only [List.getElem_map, List.getElem_zip, Function.comp_apply]
        exact (each i _ _ _ position first second).mpr (alike i _ _ _ position first second)

end

section
variable {xs ys : List (Atom × Value)}

theorem members_checked (json : (Value.mapping xs).IsJson) (item : Form) :
    ((canonicalEntries (xs.map fun entry => (entry.1, entry.2.checked item))).map
        Prod.fst).Nodup ∧
      ∀ name, (canonicalEntries (xs.map fun entry => (entry.1, entry.2.checked item))).lookup name =
        (lookupText name xs).map fun value => (value.checked item).canonicalText := by
  constructor
  · have names := json.memberNamesDiffer
    rw [canonicalEntries_eq, List.map_map] at names
    rw [canonicalEntries_eq, List.map_map, List.map_map]
    exact names
  · intro name
    rw [lookup_canonicalEntries, lookupText_map fun _ (value : Value) => value.checked item,
      Option.map_map]
    · rfl
    · rw [List.forall_mem_map]
      exact fun entry membership => @IsJson.key xs entry json membership

theorem dictionary_text_eq_iff {key : TextRule} {item : Form} (first : (Value.mapping xs).IsJson)
    (second : (Value.mapping ys).IsJson)
    (each : ∀ name x y, lookupText name xs = some x → lookupText name ys = some y →
      ((x.checked item).canonicalText = (y.checked item).canonicalText ↔ ReadAlike item x y)) :
    (Value.mapping (xs.map fun entry => (entry.1, entry.2.checked item))).canonicalText =
        (Value.mapping (ys.map fun entry => (entry.1, entry.2.checked item))).canonicalText ↔
      ReadAlike (.dictionary key item) (.mapping xs) (.mapping ys) := by
  obtain ⟨namesDiffer, lookups⟩ := members_checked first item
  obtain ⟨namesDifferToo, otherLookups⟩ := members_checked second item
  rw [canonicalText, canonicalText, canonicalObject_eq_iff_lookup (written_canonicalEntries _)
    (written_canonicalEntries _) namesDiffer namesDifferToo]
  simp only [lookups, otherLookups]
  constructor
  · intro same
    refine .dictionary (fun name => ?_) fun name x y inXs inYs => ?_
    · have here := congrArg Option.isSome (same name)
      rwa [Option.isSome_map, Option.isSome_map] at here
    · have here := same name
      rw [inXs, inYs, Option.map_some, Option.map_some, Option.some.injEq] at here
      exact (each name x y inXs inYs).mp here
  · intro alike name
    cases alike with
    | dictionary sameKeys alike =>
        have given := sameKeys name
        cases inXs : lookupText name xs with
        | none =>
            rw [inXs, Option.isSome_none, eq_comm, Option.isSome_eq_false_iff,
              Option.isNone_iff_eq_none] at given
            rw [given]
        | some x =>
            rw [inXs, Option.isSome_some, eq_comm, Option.isSome_iff_exists] at given
            obtain ⟨y, inYs⟩ := given
            rw [inYs, Option.map_some, Option.map_some,
              (each name x y inXs inYs).mpr (alike name x y inXs inYs)]

theorem resultText_of_absent {field : Field} (absent : lookupText field.name xs = none) :
    field.resultText xs = Value.null.canonicalText := by
  rw [Field.resultText, absent, Option.map_none, Option.getD_none]

theorem resultText_of_given {field : Field} {x : Value}
    (given : lookupText field.name xs = some x) :
    field.resultText xs = (x.checked field.form).canonicalText := by
  rw [Field.resultText, given, Option.map_some, Option.getD_some]

theorem resultText_eq_null_iff {field : Field} (regular : field.form.isRegular = true)
    (json : (Value.mapping xs).IsJson)
    (admits : ∀ x, lookupText field.name xs = some x → Admits .validation field.form x) :
    field.resultText xs = Value.null.canonicalText ↔ ¬ IsFilled xs field.name := by
  cases given : lookupText field.name xs with
  | none => simp [resultText_of_absent given, not_isFilled given]
  | some x =>
      rw [resultText_of_given given, isFilled_iff given, not_not]
      exact (admits x given).checked_text_eq_null_iff
        (json.entry (lookupText_eq_some_mem given)) regular

/-- Two fields are written alike when both or neither say something, and say the same. -/
theorem resultText_eq_iff {field : Field} (regular : field.form.isRegular = true)
    (first : (Value.mapping xs).IsJson) (second : (Value.mapping ys).IsJson)
    (admits : ∀ x, lookupText field.name xs = some x → Admits .validation field.form x)
    (otherAdmits : ∀ y, lookupText field.name ys = some y → Admits .validation field.form y)
    (each : ∀ x y, lookupText field.name xs = some x → lookupText field.name ys = some y →
      ((x.checked field.form).canonicalText = (y.checked field.form).canonicalText ↔
        ReadAlike field.form x y)) :
    field.resultText xs = field.resultText ys ↔
      (IsFilled xs field.name ↔ IsFilled ys field.name) ∧
        ∀ x y, lookupText field.name xs = some x → lookupText field.name ys = some y →
          ReadAlike field.form x y := by
  have filled := resultText_eq_null_iff regular first admits
  have otherFilled := resultText_eq_null_iff regular second otherAdmits
  constructor
  · intro same
    refine ⟨?_, fun x y inXs inYs => (each x y inXs inYs).mp ?_⟩
    · rw [← not_iff_not, ← filled, ← otherFilled, same]
    · rwa [resultText_of_given inXs, resultText_of_given inYs] at same
  · rintro ⟨sameFilled, alike⟩
    cases inXs : lookupText field.name xs with
    | none =>
        rw [resultText_of_absent inXs, eq_comm, otherFilled, ← sameFilled]
        exact not_isFilled inXs
    | some x =>
        cases inYs : lookupText field.name ys with
        | none =>
            rw [resultText_of_absent inYs, filled, sameFilled]
            exact not_isFilled inYs
        | some y =>
            rw [resultText_of_given inXs, resultText_of_given inYs]
            exact (each x y inXs inYs).mpr (alike x y inXs inYs)

theorem record_text_eq_iff {name : ModelName} (first : (Value.mapping xs).IsJson)
    (second : (Value.mapping ys).IsJson)
    (admits : Admits .validation (.model name) (.mapping xs))
    (otherAdmits : Admits .validation (.model name) (.mapping ys))
    (each : ∀ field ∈ name.definition.fields, ∀ x y, lookupText field.name xs = some x →
      lookupText field.name ys = some y →
      ((x.checked field.form).canonicalText = (y.checked field.form).canonicalText ↔
        ReadAlike field.form x y)) :
    ((Value.mapping xs).checked (.model name)).canonicalText =
        ((Value.mapping ys).checked (.model name)).canonicalText ↔
      ReadAlike (.model name) (.mapping xs) (.mapping ys) := by
  rw [admits.record_text first, otherAdmits.record_text second]
  have field {field : Field} (inFields : field ∈ name.definition.fields) :=
    resultText_eq_iff (name.field_isRegular field inFields) first second
      (fun _ => admits.field inFields) (fun _ => otherAdmits.field inFields) (each field inFields)
  constructor
  · intro same
    have texts {declared : Field} (inFields : declared ∈ name.definition.fields) :
        declared.resultText xs = declared.resultText ys := by
      obtain ⟨like, inFieldsToo, sameName, sameText⟩ := field_of_record_text same _ inFields
      rw [ModelName.field_eq_of_name inFieldsToo inFields sameName] at sameText
      exact sameText.symm
    exact .model (fun _ inFields => ((field inFields).mp (texts inFields)).1)
      fun _ inFields => ((field inFields).mp (texts inFields)).2
  · intro alike
    cases alike with
    | model filled alike =>
        refine congrArg canonicalObject (List.map_congr_left fun declared inFields => ?_)
        rw [(field inFields).mpr ⟨filled declared inFields, alike declared inFields⟩]

end

/-! ### Whole values -/

section
variable {a b : Value} (first : a.IsJson) (second : b.IsJson)

include first second

theorem choice_text_eq_iff {dispatch : Dispatch} {branches : List (String × Form)} {label : String}
    {form : Form} (choice : Form.RegularChoice dispatch branches)
    (found : dispatch.label? a = some label) (entered : branches.lookup label = some form)
    (admits : Admits .validation form a) (otherAdmits : Admits .validation (.choice dispatch branches) b)
    (each : Admits .validation form b →
      ((a.checked form).canonicalText = (b.checked form).canonicalText ↔ ReadAlike form a b)) :
    (a.checked (.choice dispatch branches)).canonicalText =
        (b.checked (.choice dispatch branches)).canonicalText ↔
      ReadAlike (.choice dispatch branches) a b := by
  obtain ⟨otherLabel, other, otherFound, otherEntered, otherAdmits⟩ :=
    admits_choice_iff.mp otherAdmits
  have inBranches := lookup_eq_some_mem entered
  have inBranchesToo := lookup_eq_some_mem otherEntered
  rw [checked_choice found entered, checked_choice otherFound otherEntered]
  constructor
  · intro same
    obtain rfl := label_eq_of_text first second (choice.suited inBranches)
      (choice.suited inBranchesToo) (choice.branchRegular _ inBranches)
      (choice.branchRegular _ inBranchesToo) admits otherAdmits same
    rw [entered, Option.some.injEq] at otherEntered
    subst otherEntered
    exact .branch found otherFound entered ((each otherAdmits).mp same)
  · intro alike
    cases alike with
    | branch foundToo bears enteredToo alike =>
        rw [found, Option.some.injEq] at foundToo
        subst foundToo
        rw [otherFound, Option.some.injEq] at bears
        subst bears
        rw [entered, Option.some.injEq] at enteredToo otherEntered
        subst enteredToo otherEntered
        exact (each otherAdmits).mpr alike

/-- Where the parts are written alike exactly when they are read alike, so are the wholes. -/
theorem whole_text_eq_iff {form : Form} (whole : form.isChoice = false)
    (uniform : form.isUniform = true) (admits : Admits .validation form a)
    (otherAdmits : Admits .validation form b)
    (part : ∀ {inner x y}, (inner, x) ∈ form.parts a → (inner, y) ∈ form.parts b →
      ((x.checked inner).canonicalText = (y.checked inner).canonicalText ↔ ReadAlike inner x y)) :
    (a.checked form).canonicalText = (b.checked form).canonicalText ↔ ReadAlike form a b := by
  have passes := admits.passes first uniform
  have passesToo := otherAdmits.passes second uniform
  have fits := ((admits_whole_iff whole).mp admits).1
  have otherFits := ((admits_whole_iff whole).mp otherAdmits).1
  cases form with
  | text rule =>
      obtain ⟨content, rfl, accepted⟩ := fits
      obtain ⟨other, rfl, acceptedToo⟩ := otherFits
      rw [checked_text accepted, checked_text acceptedToo]
      constructor
      · intro same
        obtain rfl := asciiQuoted_injective same
        exact .text
      · rintro ⟨⟩
        rfl
  | number rule =>
      obtain ⟨n, rfl, checked, accepted⟩ := fits
      obtain ⟨m, rfl, otherChecked, acceptedToo⟩ := otherFits
      rw [checked_number accepted, checked_number acceptedToo]
      exact number_text_eq_iff first.node second.node accepted acceptedToo
  | literal choices =>
      obtain ⟨content, chosen, rfl⟩ := fits
      obtain ⟨other, chosenToo, rfl⟩ := otherFits
      rw [checked_literal chosen, checked_literal chosenToo]
      constructor
      · intro same
        obtain rfl := asciiQuoted_injective same
        exact .literal
      · rintro ⟨⟩
        rfl
  | flag =>
      rw [checked_flag fits, checked_flag otherFits]
      exact iff_of_true rfl .flag
  | anyJson =>
      rw [first.checked_anyJson, second.checked_anyJson, first.canonicalText_eq_iff_similar second]
      exact ⟨.anyJson, fun | .anyJson similar => similar⟩
  | tuple positions distinct =>
      obtain ⟨xs, rfl, length, _⟩ := fits
      obtain ⟨ys, rfl, otherLength, _⟩ := otherFits
      rw [checked_tuple passes length, checked_tuple passesToo otherLength]
      refine tuple_text_eq_iff length otherLength fun i form x y position inXs inYs => ?_
      exact part
        (List.mem_of_getElem? (List.getElem?_zip_eq_some.mpr ⟨position, inXs⟩))
        (List.mem_of_getElem? (List.getElem?_zip_eq_some.mpr ⟨position, inYs⟩))
  | list item minLength unique =>
      obtain ⟨xs, rfl, _⟩ := fits
      obtain ⟨ys, rfl, _⟩ := otherFits
      rw [checked_list passes, checked_list passesToo]
      refine list_text_eq_iff fun pair paired => ?_
      obtain ⟨inXs, inYs⟩ := List.of_mem_zip paired
      exact part (Form.mem_parts_iff.mpr (.item inXs)) (Form.mem_parts_iff.mpr (.item inYs))
  | dictionary key item =>
      obtain ⟨xs, rfl, _⟩ := fits
      obtain ⟨ys, rfl, _⟩ := otherFits
      rw [first.checked_dictionary passes, second.checked_dictionary passesToo]
      refine dictionary_text_eq_iff first second fun name x y inXs inYs => ?_
      exact part (Form.mem_parts_iff.mpr (.entry (lookupText_eq_some_mem inXs)))
        (Form.mem_parts_iff.mpr (.entry (lookupText_eq_some_mem inYs)))
  | choice dispatch branches => simp [Form.isChoice] at whole
  | model name =>
      obtain ⟨xs, rfl, _⟩ := fits
      obtain ⟨ys, rfl, _⟩ := otherFits
      refine record_text_eq_iff first second admits otherAdmits fun field inFields x y inXs inYs => ?_
      exact part (Form.mem_parts_iff.mpr (.field inFields (lookupText_eq_some_mem inXs)))
        (Form.mem_parts_iff.mpr (.field inFields (lookupText_eq_some_mem inYs)))

end

/-- Two values that pass a form become values with one canonical text exactly when they are read
alike. -/
theorem Admits.text_eq_iff {form : Form} {a b : Value} (admits : Admits .validation form a)
    (otherAdmits : Admits .validation form b) (first : a.IsJson) (second : b.IsJson)
    (uniform : form.isUniform = true) :
    (a.checked form).canonicalText = (b.checked form).canonicalText ↔ ReadAlike form a b := by
  induction admits generalizing b with
  | branch found entered admits inductionHypothesis =>
      have choice := Form.regularChoice_iff.mp uniform
      have regular := choice.branchRegular _ (lookup_eq_some_mem entered)
      refine choice_text_eq_iff first second choice found entered admits otherAdmits fun inner => ?_
      exact inductionHypothesis inner first second (Form.isUniform_of_isRegular regular)
  | whole fits parts inductionHypothesis =>
      refine whole_text_eq_iff first second fits.isWhole uniform (.whole fits parts) otherAdmits ?_
      intro inner x y inFirst inSecond
      exact inductionHypothesis (inner, x) inFirst
        (((admits_whole_iff fits.isWhole).mp otherAdmits).2 (inner, y) inSecond)
        (first.part (Form.isPartOf_of_mem_parts inFirst))
        (second.part (Form.isPartOf_of_mem_parts inSecond))
        (Form.isUniform_of_mem_parts uniform inFirst)

end AnimationGrammar
