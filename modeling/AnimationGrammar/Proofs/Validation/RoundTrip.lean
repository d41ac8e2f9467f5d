import AnimationGrammar.Playback.Offset
import AnimationGrammar.Proofs.Validation.Readings
import AnimationGrammar.Proofs.Validation.Results

/-!
Validation preserves data.

Validation changes a value in three ways only: a flag may be written as a number, an integer is rounded
to a double, and a free key that is null is taken for one that is not given.  A value in which none of
this happens is verbatim, and validating it and writing the result back gives the same JSON value.
-/

namespace AnimationGrammar

open Value

/-- Whether validation keeps a value as it stands: every flag is written as true, doubles hold every
integer, and no free key of a token-image rule is null. -/
structure IsVerbatim (form : Form) (value : Value) : Prop where
  flags : ∀ place, Visits form value .flag place → place = .boolean true
  integers : ∀ part, IsPartOf part value → ∀ n ∈ part.integer?,
    Representable (n.natAbs * unitsPerOne)
  freeKeys : ∀ entries, Visits form value (.model .tokenImageRule) (.mapping entries) →
    ∀ field ∈ ruleElementFields, lookupText field.name entries ≠ some .null

namespace IsVerbatim

variable {form inner : Form} {value : Value}

theorem branch {dispatch : Dispatch} {branches : List (String × Form)} {label : String}
    (verbatim : IsVerbatim (.choice dispatch branches) value)
    (found : dispatch.label? value = some label) (entered : branches.lookup label = some form) :
    IsVerbatim form value where
  flags place visits := verbatim.flags place (.branch found entered visits)
  integers := verbatim.integers
  freeKeys entries visits := verbatim.freeKeys entries (.branch found entered visits)

theorem part {place : Value} (verbatim : IsVerbatim form value)
    (membership : (inner, place) ∈ form.parts value) : IsVerbatim inner place where
  flags other visits := verbatim.flags other (.part membership visits)
  integers other inside := verbatim.integers other
    (inside.trans (Form.isPartOf_of_mem_parts membership))
  freeKeys entries visits := verbatim.freeKeys entries (.part membership visits)

/-- A value is kept if no part of it is the number one, an integer that no double holds, or null. -/
theorem of_parts (admits : Admits .validation form value)
    (noOne : ∀ part, IsPartOf part value → part.isOne = false)
    (integers : ∀ part, IsPartOf part value → ∀ n ∈ part.integer?,
      Representable (n.natAbs * unitsPerOne))
    (noNull : ∀ part, IsPartOf part value → part.kind? ≠ some .null) : IsVerbatim form value where
  flags := admits.flags_true noOne
  integers := integers
  freeKeys _ visits _ _ given :=
    noNull .null (.trans (.entry (lookupText_eq_some_mem given) .self) visits.isPartOf) rfl

theorem rounded_place {n : Numeral} {x : Double} (verbatim : IsVerbatim form (.number n))
    (rounded : n.toDouble? = some x) : (Numeral.double x).place = n.place := by
  cases n with
  | integer value =>
      obtain ⟨y, exact, place⟩ := Numeral.toDouble?_exact (verbatim.integers _ .self value rfl)
      rw [rounded, Option.some.injEq] at exact
      rw [exact, place]
  | double value => rw [Option.some.inj rounded]

end IsVerbatim

/-! ### Keys that may be null -/

def Form.isAnyJson : Form → Bool
  | .anyJson => true
  | _ => false

/-- Only a token-image rule has free keys. -/
theorem ModelName.free_field {name : ModelName} {field : Field}
    (inFields : field ∈ name.definition.fields) (free : field.form = .anyJson) :
    name = .tokenImageRule ∧ ∃ element ∈ ruleElementFields, element.name = field.name := by
  have all : ∀ name ∈ ModelName.all, ∀ field ∈ name.definition.fields, field.form.isAnyJson = true →
      name = .tokenImageRule ∧ field.name ∈ ruleElementFields.map Field.name := by
    decide +kernel
  obtain ⟨isRule, isElement⟩ := all name name.mem_all field inFields (by rw [free]; rfl)
  exact ⟨isRule, List.mem_map.mp isElement⟩

theorem IsVerbatim.ne_null {name : ModelName} {entries : List (Atom × Value)}
    (verbatim : IsVerbatim (.model name) (.mapping entries))
    (admits : Admits .validation (.model name) (.mapping entries)) {field : Field}
    (inFields : field ∈ name.definition.fields) {value : Value}
    (given : lookupText field.name entries = some value) : value ≠ .null := by
  rintro rfl
  have free := (admits.field inFields given).eq_anyJson_of_null (name.field_isRegular field inFields)
  obtain ⟨rfl, element, isElement, sameName⟩ := ModelName.free_field inFields free
  apply verbatim.freeKeys entries (.here rfl) element isElement
  rw [sameName, given]

theorem Admits.lookup_eq_none {reading : Reading} {name : ModelName} {entries : List (Atom × Value)}
    (admits : Admits reading (.model name) (.mapping entries))
    (closed : name.definition.closed = true) {key : String}
    (undeclared : key ∉ name.definition.fieldNames) : lookupText key entries = none := by
  obtain ⟨⟨_, same, fits⟩, _⟩ := (admits_whole_iff rfl).mp admits
  cases same
  rw [lookupText_eq_none_iff]
  intro entry membership isKey
  obtain ⟨fieldName, declared, same⟩ := fits.known closed entry membership
  rw [isKey, Atom.text.injEq] at same
  exact undeclared (same ▸ declared)

/-! ### Writing back -/

theorem dumpItems_eq (items : List Value) : dumpItems items = items.map dump := by
  induction items with
  | nil => rfl
  | cons item rest inductionHypothesis => rw [dumpItems, inductionHypothesis, List.map_cons]

theorem dumpEntries_eq (entries : List (Atom × Value)) :
    dumpEntries entries = entries.map fun entry => (entry.1, entry.2.dump) := by
  induction entries with
  | nil => rfl
  | cons entry rest inductionHypothesis =>
      rcases entry with ⟨key, value⟩
      rw [dumpEntries, inductionHypothesis, List.map_cons]

theorem dumpFields_eq {fields : List (String × Value)}
    (filled : ∀ field ∈ fields, field.2 ≠ .null) :
    dumpFields fields = fields.map fun field => (.text field.1, field.2.dump) := by
  induction fields with
  | nil => rfl
  | cons field rest inductionHypothesis =>
      rcases field with ⟨name, value⟩
      rw [List.forall_mem_cons] at filled
      rw [dumpFields, inductionHypothesis filled.2, List.map_cons]
      exact filled.1

theorem Value.IsJson.dump_eq {value : Value} (json : value.IsJson) : value.dump = value := by
  induction value, json using jsonInduction with
  | atom a json => rfl
  | list items json inductionHypothesis =>
      rw [dump, dumpItems_eq, List.map_congr_left inductionHypothesis, List.map_id']
  | mapping entries json inductionHypothesis =>
      rw [dump, dumpEntries_eq]
      refine congrArg Value.mapping ((List.map_congr_left fun entry membership => ?_).trans
        (List.map_id' entries))
      rw [inductionHypothesis entry membership]

section
variable {name : ModelName} {entries : List (Atom × Value)} (json : (Value.mapping entries).IsJson)
  (admits : Admits .validation (.model name) (.mapping entries))
  (verbatim : IsVerbatim (.model name) (.mapping entries))
include json admits verbatim

theorem acceptedFields_ne_null :
    ∀ field ∈ acceptedFields entries name.definition.fields, field.2 ≠ .null := by
  rintro ⟨fieldName, result⟩ membership isNull
  obtain ⟨field, inFields, rfl, value, given, accepted⟩ := mem_acceptedFields.mp membership
  obtain ⟨_, rfl⟩ := Value.check_eq_ok_iff.mp accepted
  have toNull := (admits.field inFields given).checked_text_eq_null_iff
    (json.entry (lookupText_eq_some_mem given)) (name.field_isRegular field inFields)
  exact verbatim.ne_null admits inFields given (toNull.mp (congrArg canonicalText isNull))

/-- A record is written back as the object that it was made of, when its fields are. -/
theorem dump_record_text (closed : name.definition.closed = true)
    (each : ∀ field ∈ name.definition.fields, ∀ value, lookupText field.name entries = some value →
      (value.checked field.form).dump.canonicalText = value.canonicalText) :
    ((Value.mapping entries).checked (.model name)).dump.canonicalText =
      (Value.mapping entries).canonicalText := by
  have members : canonicalEntries (dumpFields (acceptedFields entries name.definition.fields)) =
      (acceptedFields entries name.definition.fields).map fun field =>
        (field.1, field.2.dump.canonicalText) := by
    rw [dumpFields_eq (acceptedFields_ne_null json admits verbatim), canonicalEntries_eq,
      List.map_map]
    rfl
  have namesDiffer : (canonicalEntries (dumpFields
      (acceptedFields entries name.definition.fields)) |>.map Prod.fst).Nodup := by
    rw [members, List.map_map]
    exact names_acceptedFields_nodup
  rw [Value.checked_model (admits.passes json rfl), dump, canonicalText, canonicalText,
    canonicalObject_eq_iff_lookup (written_canonicalEntries _) (written_canonicalEntries _)
      namesDiffer json.memberNamesDiffer]
  intro key
  rw [members, lookup_map_snd fun value : Value => value.dump.canonicalText,
    lookup_canonicalEntries fun _ membership => json.key membership]
  by_cases declared : key ∈ name.definition.fieldNames
  · obtain ⟨field, inFields, rfl⟩ := List.mem_map.mp declared
    rw [admits.lookup_fields json inFields, Option.map_map]
    cases given : lookupText field.name entries with
    | none => rfl
    | some value =>
        rw [Option.map_some, Option.map_some, Function.comp_apply, each field inFields value given]
  · have unset : (acceptedFields entries name.definition.fields).lookup key = none := by
      rw [Option.eq_none_iff_forall_ne_some]
      intro result found
      obtain ⟨field, inFields, rfl, _⟩ := mem_acceptedFields.mp (lookup_eq_some_mem found)
      exact declared (Definition.mem_fieldNames inFields)
    rw [unset, admits.lookup_eq_none closed declared]
    rfl

end

/-- Where the parts of a value are written back as they were, so is the value. -/
theorem Admits.dump_text_of_parts {form : Form} {value : Value} (whole : form.isChoice = false)
    (admits : Admits .validation form value) (json : value.IsJson) (uniform : form.isUniform = true)
    (kept : ∀ leaf ∈ form.leaves, leaf.keepsKeys = true) (verbatim : IsVerbatim form value)
    (part : ∀ {inner place}, (inner, place) ∈ form.parts value →
      (place.checked inner).dump.canonicalText = place.canonicalText) :
    (value.checked form).dump.canonicalText = value.canonicalText := by
  have passes := admits.passes json uniform
  have fits := ((admits_whole_iff whole).mp admits).1
  cases form with
  | text rule =>
      obtain ⟨content, rfl, accepted⟩ := fits
      rw [checked_text accepted]
      rfl
  | number rule =>
      obtain ⟨n, rfl, m, accepted⟩ := fits
      obtain ⟨x, rounded, place, _⟩ := NumberRule.check_place accepted
      have ordered : n.IsOrdered := json.node
      rw [checked_number accepted, dump, canonicalText, canonicalText, Atom.canonicalText,
        Atom.canonicalText, Numeral.canonicalText_eq_iff (NumberRule.check_isOrdered ordered accepted)
          ordered, place, verbatim.rounded_place rounded]
  | literal choices =>
      obtain ⟨content, chosen, rfl⟩ := fits
      rw [checked_literal chosen]
      rfl
  | flag =>
      rw [checked_flag fits, verbatim.flags value (.here rfl)]
      rfl
  | anyJson => rw [json.checked_anyJson, json.dump_eq]
  | tuple positions distinct =>
      obtain ⟨items, rfl, length, _⟩ := fits
      have paired : items.map canonicalText =
          (items.zip positions).map fun part => part.1.canonicalText := by
        nth_rewrite 1 [← List.map_fst_zip length.le, List.map_map]
        rfl
      rw [checked_tuple passes length, dump, canonicalText, canonicalText, dumpItems_eq,
        canonicalTexts_eq, canonicalTexts_eq, List.map_map, List.map_map, paired]
      refine congrArg canonicalList (List.map_congr_left fun place inItems => ?_)
      apply part
      rw [Form.parts, ← List.zip_swap]
      exact List.mem_map_of_mem (f := Prod.swap) inItems
  | list item minLength unique =>
      obtain ⟨items, rfl, _⟩ := fits
      rw [checked_list passes, dump, canonicalText, canonicalText, dumpItems_eq, canonicalTexts_eq,
        canonicalTexts_eq, List.map_map, List.map_map]
      refine congrArg canonicalList (List.map_congr_left fun place inItems => ?_)
      exact part (Form.mem_parts_iff.mpr (.item inItems))
  | dictionary key item =>
      obtain ⟨entries, rfl, _⟩ := fits
      rw [json.checked_dictionary passes, dump, canonicalText, canonicalText, dumpEntries_eq,
        canonicalEntries_eq, canonicalEntries_eq, List.map_map, List.map_map]
      refine congrArg canonicalObject (List.map_congr_left fun entry inEntries => ?_)
      simp only [Function.comp_apply]
      rw [part (Form.mem_parts_iff.mpr (.entry inEntries))]
  | choice dispatch branches => exact fits.elim
  | model name =>
      obtain ⟨entries, rfl, _⟩ := fits
      refine dump_record_text json admits verbatim (kept _ List.mem_cons_self)
        fun field inFields place given => ?_
      exact part (Form.mem_parts_iff.mpr (.field inFields (lookupText_eq_some_mem given)))

theorem Admits.dump_text {form : Form} {value : Value} (admits : Admits .validation form value)
    (json : value.IsJson) (uniform : form.isUniform = true)
    (kept : ∀ leaf ∈ form.leaves, leaf.keepsKeys = true) (verbatim : IsVerbatim form value) :
    (value.checked form).dump.canonicalText = value.canonicalText := by
  induction admits with
  | branch found entered _ inductionHypothesis =>
      have inBranches := lookup_eq_some_mem entered
      have regular := (Form.regularChoice_iff.mp uniform).branchRegular _ inBranches
      rw [checked_choice found entered]
      exact inductionHypothesis json (Form.isUniform_of_isRegular regular)
        (fun leaf isLeaf => kept leaf (Form.leaves_branch inBranches isLeaf))
        (verbatim.branch found entered)
  | whole fits parts inductionHypothesis =>
      refine dump_text_of_parts fits.isWhole (.whole fits parts) json uniform kept verbatim ?_
      intro inner place membership
      exact inductionHypothesis (inner, place) membership
        (json.part (Form.isPartOf_of_mem_parts membership))
        (Form.isUniform_of_mem_parts uniform membership)
        (Form.keepsKeys_of_mem_parts kept membership) (verbatim.part membership)

/-- A value that validation keeps comes back: the result, written by its names and without the fields
that are not set, is the same JSON value. -/
theorem check_roundTrip {form : Form} {value result : Value} (grammar : form.IsOfGrammar)
    (notRoot : form ≠ .model .tokenImages) (json : value.IsJson) (verbatim : IsVerbatim form value)
    (accepted : value.check form = .ok result) :
    result.dump.canonicalText = value.canonicalText := by
  obtain ⟨passes, rfl⟩ := Value.check_eq_ok_iff.mp accepted
  have uniform := grammar.isUniform
  have admits := (json.passes_iff_of_uniform uniform).mp passes
  exact admits.dump_text json uniform (grammar.keepsKeys notRoot) verbatim

/-- Entries whose keys are words of a logic, and that hold a tuple, a flag and integers. -/
def conditionalEntries : Value :=
  .list [.object [
    ("predicate", .list [.object [
      ("then", .object [("not", .object [("gte", .list [.text "baz", .integer 2])])]),
      ("if", .object [("or", .list [.text "foo", .text "bar"])])]]),
    ("options", .object [("animateProperty", .list [.object [
      ("options", .object [("to", .integer 3), ("from", .integer 2), ("duration", .integer 500)]),
      ("property", .text "alpha"), ("target", .text "sprite")]])]),
    ("default", .boolean true)]]

/-- Validation makes records, tuples and doubles of the entries, and loses nothing. -/
theorem check_conditionalEntries : ∃ result, conditionalEntries.check .animationObjects = .ok result ∧
    result.dump.canonicalText = conditionalEntries.canonicalText := by
  have json : conditionalEntries.IsJson := by decide
  have passes : conditionalEntries.Passes .animationObjects :=
    (Value.givesReason _ _ rfl).faults_eq_nil_iff.mp (by decide +kernel)
  have admits := (json.passes_iff .animationObjects rfl).mp passes
  have grammar : Form.animationObjects.IsOfGrammar :=
    @Form.IsOfGrammar.named "AnimationObjects" _ (by simp [Form.named])
  have verbatim : IsVerbatim .animationObjects conditionalEntries :=
    .of_parts admits (by decide +kernel) (by decide +kernel) (by decide +kernel)
  obtain ⟨result, accepted⟩ := passes
  exact ⟨result, accepted, check_roundTrip grammar (by simp [Form.animationObjects, Form.uniqueList])
    json verbatim accepted⟩

end AnimationGrammar
