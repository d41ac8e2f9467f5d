import AnimationGrammar.Proofs.Validation.Passing

/-!
Which objects pass a model.

A model gathers its fields one after the other.  As long as no fault is found, the fields gathered so
far are exactly those that the object gives, so a field is refused only for what is wrong with itself,
and in the end the conditions of the model can be read off the object.
-/

namespace AnimationGrammar

open Outcome Value

/-- What a field asks of an object. -/
structure Field.Fits (entries : List (Atom × Value)) (field : Field) : Prop where
  given : field.required = true → IsGiven entries field.name
  passes : ∀ value, lookupText field.name entries = some value → value.Passes field.form
  exclusive : IsGiven entries field.name → ∀ other ∈ field.excludes, ¬ IsGiven entries other

def acceptedField? (entries : List (Atom × Value)) (field : Field) : Option (String × Value) :=
  (lookupText field.name entries).bind fun value =>
    (value.check field.form).toOption.map (Prod.mk field.name)

def acceptedFields (entries : List (Atom × Value)) (fields : List Field) : List (String × Value) :=
  fields.filterMap (acceptedField? entries)

section
variable {name : ModelName} {entries : List (Atom × Value)}

theorem acceptedField?_of_absent {field : Field} (absent : lookupText field.name entries = none) :
    acceptedField? entries field = none := by
  rw [acceptedField?, absent, Option.bind_none]

theorem acceptedField?_of_ok {field : Field} {value result : Value}
    (given : lookupText field.name entries = some value)
    (accepted : value.check field.form = .ok result) :
    acceptedField? entries field = some (field.name, result) := by
  rw [acceptedField?, given, Option.bind_some, accepted]
  rfl

theorem mem_acceptedFields {fields : List Field} {fieldName : String} {result : Value} :
    (fieldName, result) ∈ acceptedFields entries fields ↔
      ∃ field ∈ fields, field.name = fieldName ∧ ∃ value,
        lookupText fieldName entries = some value ∧ value.check field.form = .ok result := by
  rw [acceptedFields, List.mem_filterMap]
  refine exists_congr fun field => and_congr_right fun _ => ?_
  rw [acceptedField?, Option.bind_eq_some_iff]
  constructor
  · rintro ⟨value, given, accepted⟩
    rw [Option.map_eq_some_iff] at accepted
    obtain ⟨found, checked, same⟩ := accepted
    rw [Prod.mk.injEq] at same
    obtain ⟨rfl, rfl⟩ := same
    refine ⟨rfl, value, given, ?_⟩
    cases outcome : value.check field.form with
    | ok own =>
        rw [outcome] at checked
        exact congrArg Except.ok (Option.some.inj checked)
    | error faults => simp [outcome, Except.toOption] at checked
  · rintro ⟨rfl, value, given, accepted⟩
    exact ⟨value, given, by rw [accepted]; rfl⟩

theorem names_acceptedFields_nodup :
    ((acceptedFields entries name.definition.fields).map Prod.fst).Nodup := by
  refine (names_filterMap_sublist (fun field member accepted => ?_) _).nodup name.fieldNames_nodup
  rw [acceptedField?, Option.bind_eq_some_iff] at accepted
  obtain ⟨value, _, checked⟩ := accepted
  obtain ⟨_, _, rfl⟩ := Option.map_eq_some_iff.mp checked
  rfl

theorem lookup_acceptedFields {fieldName : String} {result : Value} :
    (acceptedFields entries name.definition.fields).lookup fieldName = some result ↔
      (fieldName, result) ∈ acceptedFields entries name.definition.fields :=
  lookup_eq_some_iff_mem names_acceptedFields_nodup

theorem isSome_lookup_acceptedFields {before : List Field}
    (beforeFits : ∀ earlier ∈ before, earlier.Fits entries) {other : String}
    (among : other ∈ before.map Field.name) :
    ((acceptedFields entries before).lookup other).isSome = true ↔ IsGiven entries other := by
  obtain ⟨earlier, inBefore, rfl⟩ := List.mem_map.mp among
  constructor
  · intro found
    obtain ⟨result, looked⟩ := Option.isSome_iff_exists.mp found
    obtain ⟨_, _, _, value, given, _⟩ := mem_acceptedFields.mp (lookup_eq_some_mem looked)
    exact Option.isSome_iff_exists.mpr ⟨value, given⟩
  · intro given
    obtain ⟨value, looked⟩ := Option.isSome_iff_exists.mp given
    obtain ⟨result, accepted⟩ := (beforeFits earlier inBefore).passes value looked
    have membership := mem_acceptedFields.mpr ⟨earlier, inBefore, rfl, value, looked, accepted⟩
    by_contra absent
    rw [Option.not_isSome_iff_eq_none, List.lookup_eq_none_iff] at absent
    simpa using absent _ membership

theorem mem_of_mem_takeWhile {before rest : List String} {first name : String}
    (membership : name ∈ (before ++ first :: rest).takeWhile (· ≠ first)) : name ∈ before := by
  induction before with
  | nil => simp at membership
  | cons head before inductionHypothesis =>
      rw [List.cons_append, List.takeWhile_cons] at membership
      split at membership
      · rcases List.mem_cons.mp membership with rfl | inRest
        · exact List.mem_cons_self
        · exact List.mem_cons_of_mem _ (inductionHypothesis inRest)
      · simp at membership

theorem isExcluded_eq_false_iff {before rest : List Field} {field : Field}
    (split : name.definition.fields = before ++ field :: rest)
    (beforeFits : ∀ earlier ∈ before, earlier.Fits entries) :
    field.isExcluded (acceptedFields entries before) = false ↔
      ∀ other ∈ field.excludes, ¬ IsGiven entries other := by
  have membership : field ∈ name.definition.fields := by simp [split]
  rw [Field.isExcluded, List.any_eq_false]
  refine forall₂_congr fun other excluded => ?_
  have among := name.excludes_before field membership other excluded
  rw [Definition.fieldNames, split, List.map_append, List.map_cons] at among
  rw [isSome_lookup_acceptedFields beforeFits (mem_of_mem_takeWhile among)]

theorem Field.fits_of_absent_iff {field : Field} (absent : lookupText field.name entries = none) :
    field.Fits entries ↔ field.required = false := by
  have notGiven : ¬ IsGiven entries field.name := by simp [IsGiven, absent]
  constructor
  · intro fits
    by_contra needed
    exact notGiven (fits.given (by simpa using needed))
  · intro optional
    refine ⟨fun needed => ?_, fun value given => ?_, fun given => absurd given notGiven⟩
    · simp [optional] at needed
    · simp [absent] at given

theorem Field.fits_of_given_iff {field : Field} {value : Value}
    (looked : lookupText field.name entries = some value) :
    field.Fits entries ↔
      value.Passes field.form ∧ ∀ other ∈ field.excludes, ¬ IsGiven entries other := by
  have given : IsGiven entries field.name := by simp [IsGiven, looked]
  constructor
  · intro fits
    exact ⟨fits.passes value looked, fits.exclusive given⟩
  · rintro ⟨passes, exclusive⟩
    refine ⟨fun _ => given, fun other same => ?_, fun _ => exclusive⟩
    rw [looked, Option.some.injEq] at same
    exact same ▸ passes

/-- One field: it adds no fault exactly when it fits, and then what is given is added. -/
theorem add_acceptedFields {before rest : List Field} {field : Field}
    (split : name.definition.fields = before ++ field :: rest)
    (beforeFits : ∀ earlier ∈ before, earlier.Fits entries) :
    let next := Gathered.add (entryOutcomes name.definition entries)
      ⟨[], acceptedFields entries before⟩ field
    (next.faults = [] ↔ field.Fits entries) ∧
      (field.Fits entries → next = ⟨[], acceptedFields entries (before ++ [field])⟩) := by
  have membership : field ∈ name.definition.fields := by simp [split]
  have outcomeOf := lookupText_entryOutcomes membership entries
  have excluded := isExcluded_eq_false_iff split beforeFits
  have extended : acceptedFields entries (before ++ [field]) =
      acceptedFields entries before ++ (acceptedField? entries field).toList := by
    rw [acceptedFields, List.filterMap_append]
    rfl
  intro next
  cases looked : lookupText field.name entries with
  | none =>
      rw [looked, Option.map_none] at outcomeOf
      have result : next = if field.required then
          ⟨[⟨[.key (.text field.name)], .missing⟩], acceptedFields entries before⟩
          else ⟨[], acceptedFields entries before⟩ := by
        cases needed : field.required <;>
          simp [next, Gathered.add_eq, Field.faults, Field.taken?, outcomeOf, needed]
      rw [Field.fits_of_absent_iff looked, result, extended, acceptedField?_of_absent looked]
      cases field.required <;> simp
  | some value =>
      rw [looked, Option.map_some] at outcomeOf
      have reason := value.givesReason field.form (name.field_isRegular field membership)
      rw [Field.fits_of_given_iff looked]
      cases outcome : value.check field.form with
      | error faults =>
          have refused : ¬ value.Passes field.form := by simp [Value.Passes, outcome]
          rw [outcome] at outcomeOf reason
          have result : next.faults = faults.map (Fault.under (.key (.text field.name))) := by
            simp [next, Gathered.add_eq, Field.faults, outcomeOf]
          have some : faults ≠ [] := by simpa [GivesReason] using reason
          simp [result, refused, some]
      | ok result =>
          have passes : value.Passes field.form := ⟨result, outcome⟩
          rw [outcome] at outcomeOf
          rw [and_iff_right passes, ← excluded, extended, acceptedField?_of_ok looked outcome]
          cases apart : field.isExcluded (acceptedFields entries before) <;>
            simp [next, Gathered.add_eq, Field.faults, Field.taken?, outcomeOf, apart]

theorem faults_eq_nil_of_foldl {checked : List (Atom × Option Outcome)} {fields : List Field}
    {gathered : Gathered} (faultless : (fields.foldl (Gathered.add checked) gathered).faults = []) :
    gathered.faults = [] := by
  induction fields generalizing gathered with
  | nil => exact faultless
  | cons field rest inductionHypothesis =>
      have afterField := inductionHypothesis faultless
      rw [Gathered.add_eq, List.append_eq_nil_iff] at afterField
      exact afterField.1

/-- All fields: no fault is found exactly when each of them fits, and then what is given is gathered. -/
theorem foldl_acceptedFields (before : List Field) {rest : List Field}
    (split : name.definition.fields = before ++ rest)
    (beforeFits : ∀ earlier ∈ before, earlier.Fits entries) :
    let final := rest.foldl (Gathered.add (entryOutcomes name.definition entries))
      ⟨[], acceptedFields entries before⟩
    (final.faults = [] ↔ ∀ field ∈ rest, field.Fits entries) ∧
      ((∀ field ∈ rest, field.Fits entries) →
        final = ⟨[], acceptedFields entries name.definition.fields⟩) := by
  induction rest generalizing before with
  | nil => simp [split]
  | cons field rest inductionHypothesis =>
      intro final
      obtain ⟨faultless, step⟩ := add_acceptedFields split beforeFits
      by_cases fits : field.Fits entries
      · have later := inductionHypothesis (before ++ [field]) (by simp [split])
          (by
            intro earlier membership
            rcases List.mem_append.mp membership with inBefore | isField
            · exact beforeFits earlier inBefore
            · exact List.mem_singleton.mp isField ▸ fits)
        have unfolded : final = rest.foldl (Gathered.add (entryOutcomes name.definition entries))
            ⟨[], acceptedFields entries (before ++ [field])⟩ := by
          rw [← step fits]
          rfl
        rw [unfolded, List.forall_mem_cons]
        exact ⟨later.1.trans (by simp [fits]), fun all => later.2 all.2⟩
      · have refused : final.faults ≠ [] := by
          intro none
          exact fits (faultless.mp (faults_eq_nil_of_foldl none))
        simp [refused, fits]

/-! ### The conditions of a model -/

theorem lookup_eq_none_iff (fits : ∀ field ∈ name.definition.fields, field.Fits entries)
    {fieldName : String} (declared : fieldName ∈ name.definition.fieldNames) :
    (acceptedFields entries name.definition.fields).lookup fieldName = none ↔
      ¬ IsGiven entries fieldName := by
  rw [← isSome_lookup_acceptedFields fits declared, Option.not_isSome_iff_eq_none]

theorem acceptedFields_eq_nil_iff (fits : ∀ field ∈ name.definition.fields, field.Fits entries)
    (keysDiffer : (entries.map Prod.fst).Nodup)
    (known : ∀ entry ∈ entries, ∃ fieldName ∈ name.definition.fieldNames,
      entry.1 = .text fieldName) :
    acceptedFields entries name.definition.fields = [] ↔ entries = [] := by
  constructor
  · intro none
    rw [List.eq_nil_iff_forall_not_mem]
    intro entry membership
    obtain ⟨fieldName, declared, named⟩ := known entry membership
    rcases entry with ⟨key, value⟩
    obtain rfl : key = .text fieldName := named
    have given : lookupText fieldName entries = some value :=
      (lookupText_eq_some_iff keysDiffer).mpr membership
    have absent := (lookup_eq_none_iff fits declared).mp (by rw [none]; rfl)
    apply absent
    rw [IsGiven, given]
    rfl
  · rintro rfl
    rw [List.eq_nil_iff_forall_not_mem]
    rintro ⟨fieldName, result⟩ membership
    obtain ⟨_, _, _, _, given, _⟩ := mem_acceptedFields.mp membership
    simp [lookupText] at given

theorem NumberRule.check_fractional {rule : NumberRule} (fractional : rule.whole = false)
    {n checked : Numeral} (accepted : rule.check n = .ok checked) :
    ∃ x, n.toDouble? = some x ∧ checked = .double x := by
  rw [NumberRule.check] at accepted
  cases rounded : n.toDouble? with
  | none => simp [rounded] at accepted
  | some x =>
      simp only [rounded, fractional] at accepted
      split at accepted
      · simp at accepted
      · split at accepted
        · simp at accepted
        · simp only [Bool.false_eq_true, if_false, Except.ok.injEq] at accepted
          exact ⟨x, rfl, accepted.symm⟩

/-- A number that has to be whole becomes the integer that its rounding is. -/
theorem NumberRule.check_integer_eq_ok_iff {rule : NumberRule} (whole : rule.whole = true)
    {n checked : Numeral} :
    rule.check n = .ok checked ↔ ∃ x value, n.toDouble? = some x ∧ rule.bounds.failure? x = none ∧
      (rule.nonZero && x.isZero) = false ∧ x.toInt? = some value ∧ checked = .integer value := by
  rw [check]
  cases rounded : n.toDouble? with
  | none => simp
  | some x =>
      simp only [whole, if_true, Option.some.injEq, exists_and_left, exists_eq_left']
      generalize rule.bounds.failure? x = failed
      generalize (rule.nonZero && x.isZero) = zero
      generalize x.toInt? = exact
      cases failed with
      | some cause => simp
      | none => cases zero <;> cases exact <;> simp [eq_comm]

theorem NumberRule.check_rounded {rule : NumberRule} {n : Numeral} {x : Double}
    (rounded : n.toDouble? = some x) : rule.check n = rule.check (.double x) := by
  rw [check, check, rounded]
  rfl

theorem numberField_of_regular (fits : ∀ field ∈ name.definition.fields, field.Fits entries)
    {fieldName : String}
    (regular : (match (name.definition.field? fieldName).map Field.form with
      | some (.number rule) => !rule.whole
      | _ => false) = true) :
    (lookupText fieldName entries = none ∧
        numberField? fieldName (acceptedFields entries name.definition.fields) = none) ∨
      ∃ n x, lookupText fieldName entries = some (.number n) ∧ n.toDouble? = some x ∧
        numberField? fieldName (acceptedFields entries name.definition.fields) =
          some (.double x) := by
  obtain ⟨field, rule, found, numeric, fractional⟩ : ∃ field rule,
      name.definition.field? fieldName = some field ∧ field.form = .number rule ∧
        rule.whole = false := by
    cases found : name.definition.field? fieldName with
    | none => simp [found] at regular
    | some field =>
        cases numeric : field.form with
        | number rule => exact ⟨field, rule, rfl, numeric, by simpa [found, numeric] using regular⟩
        | _ => simp [found, numeric] at regular
  have named : field.name = fieldName := by simpa using List.find?_some found
  have membership : field ∈ name.definition.fields := List.mem_of_find?_eq_some found
  subst named
  cases looked : lookupText field.name entries with
  | none =>
      have absent := (lookup_eq_none_iff fits (Definition.mem_fieldNames membership)).mpr
        (by simp [IsGiven, looked])
      exact .inl ⟨rfl, by rw [numberField?, absent]⟩
  | some value =>
      obtain ⟨result, accepted⟩ := (fits field membership).passes value looked
      have gathered := lookup_acceptedFields.mpr
        (mem_acceptedFields.mpr ⟨field, membership, rfl, value, looked, accepted⟩)
      rw [numeric, check_atomic rfl, checkWhole_eq_ok_iff] at accepted
      cases accepted with
      | @number _ n m checked =>
          obtain ⟨x, rounded, rfl⟩ := NumberRule.check_fractional fractional checked
          exact .inr ⟨n, x, rfl, rounded, by rw [numberField?, gathered]⟩

/-- A condition is met by the gathered fields exactly when the object meets it. -/
theorem failure?_eq_none_iff (fits : ∀ field ∈ name.definition.fields, field.Fits entries)
    (keysDiffer : (entries.map Prod.fst).Nodup)
    (known : ∀ entry ∈ entries, ∃ fieldName ∈ name.definition.fieldNames,
      entry.1 = .text fieldName)
    {rule : ModelRule} (membership : rule ∈ name.definition.rules) :
    rule.failure? (acceptedFields entries name.definition.fields) = none ↔
      rule.IsMet .validation entries := by
  have regular := name.rule_isRegular rule membership
  cases rule with
  | someKey =>
      rw [ModelRule.IsMet, Ne, ← acceptedFields_eq_nil_iff fits keysDiffer known,
        ModelRule.failure?]
      cases acceptedFields entries name.definition.fields <;> simp
  | someDimension =>
      simp only [ModelRule.isRegular, Bool.and_eq_true, decide_eq_true_eq] at regular
      rw [ModelRule.IsMet, ModelRule.failure?, ← isSome_lookup_acceptedFields fits regular.1,
        ← isSome_lookup_acceptedFields fits regular.2]
      cases (acceptedFields entries name.definition.fields).lookup "x" <;>
        cases (acceptedFields entries name.definition.fields).lookup "y" <;> simp
  | orderedDelays =>
      rw [ModelRule.isRegular, List.all_eq_true] at regular
      have delay (fieldName : String) (among : fieldName ∈ ["delayMin", "delayMax"]) :=
        numberField_of_regular fits (regular fieldName among)
      rw [ModelRule.IsMet, ModelRule.failure?, IsGiven, IsGiven, Reading.validation]
      rcases delay "delayMax" (by simp) with
        ⟨absentMax, gatheredMax⟩ | ⟨n, x, max, roundedMax, gatheredMax⟩
      · simp [absentMax, gatheredMax]
      · rcases delay "delayMin" (by simp) with
          ⟨absentMin, gatheredMin⟩ | ⟨m, y, min, roundedMin, gatheredMin⟩
        · simp [max, gatheredMax, absentMin, gatheredMin]
        · simp only [max, min, gatheredMax, gatheredMin]
          by_cases unordered : x.isAtMost y = true
          · simp [unordered, roundedMax, roundedMin]
          · simp only [unordered, Option.isSome_some, Option.some.injEq, Value.atom.injEq,
              Atom.number.injEq, if_false, true_and, true_iff, true_implies, Bool.false_eq_true]
            rintro a b z w rfl rfl roundedA roundedB
            rw [roundedMax, Option.some.injEq] at roundedA
            rw [roundedMin, Option.some.injEq] at roundedB
            simpa [← roundedA, ← roundedB] using unordered

theorem assemble_eq_ok_iff {checked : List (Atom × Option Outcome)} :
    (∃ result, name.assemble checked = .ok result) ↔
      (name.definition.fields.foldl (Gathered.add checked) {}).faults = [] ∧
        name.definition.unknownKeys (checked.map Prod.fst) = [] ∧
        ∀ rule ∈ name.definition.rules,
          rule.failure? (name.definition.fields.foldl (Gathered.add checked) {}).fields = none := by
  simp only [ModelName.assemble]
  generalize name.definition.fields.foldl (Gathered.add checked) {} = gathered
  rw [← List.findSome?_eq_none_iff]
  by_cases faultless : gathered.faults ++ name.definition.unknownKeys (checked.map Prod.fst) = []
  · obtain ⟨none, noUnknown⟩ := List.append_eq_nil_iff.mp faultless
    cases name.definition.rules.findSome? (ModelRule.failure? gathered.fields) <;>
      simp [none, noUnknown, refuse]
  · have refused : ¬ (gathered.faults = [] ∧
        name.definition.unknownKeys (checked.map Prod.fst) = []) := by
      rwa [← List.append_eq_nil_iff]
    rw [if_neg (by simpa [List.isEmpty_iff] using faultless), ← and_assoc]
    simp [refused]

theorem assemble_eq_ok {checked : List (Atom × Option Outcome)} {result : Value}
    (accepted : name.assemble checked = .ok result) :
    result = .record name (name.definition.fields.foldl (Gathered.add checked) {}).fields := by
  simp only [ModelName.assemble] at accepted
  split at accepted
  · split at accepted
    · exact absurd accepted refuse_ne_ok
    · exact (Except.ok.inj accepted).symm
  · simp at accepted

theorem closed_of_rule {rule : ModelRule} (membership : rule ∈ name.definition.rules) :
    name.definition.closed = true := by
  rcases name.closed_or_rules_nil with closed | none
  · exact closed
  · simp [none] at membership

/-- An object is put together when every field fits it, every key is known and the conditions of the model
are met; the record holds the fields that are given. -/
theorem assemble_entryOutcomes_eq_ok_iff {result : Value} :
    name.assemble (entryOutcomes name.definition entries) = .ok result ↔
      (∀ field ∈ name.definition.fields, field.Fits entries) ∧
      (name.definition.closed = true → ∀ entry ∈ entries,
        ∃ fieldName ∈ name.definition.fieldNames, entry.1 = .text fieldName) ∧
      (∀ rule ∈ name.definition.rules,
        rule.failure? (acceptedFields entries name.definition.fields) = none) ∧
      result = .record name (acceptedFields entries name.definition.fields) := by
  obtain ⟨faultless, gathered⟩ :=
    @foldl_acceptedFields name entries [] name.definition.fields (List.nil_append _).symm (by simp)
  have accepts : (∃ result, name.assemble (entryOutcomes name.definition entries) = .ok result) ↔ _ :=
    assemble_eq_ok_iff
  rw [keys_entryOutcomes, unknownKeys_eq_nil_iff, List.forall_mem_map] at accepts
  constructor
  · intro accepted
    obtain ⟨none, known, conditions⟩ := accepts.mp ⟨result, accepted⟩
    have fits := faultless.mp none
    have same := assemble_eq_ok accepted
    rw [show ({} : Gathered) = ⟨[], acceptedFields entries []⟩ from rfl, gathered fits] at conditions same
    exact ⟨fits, known, conditions, same⟩
  · rintro ⟨fits, known, conditions, rfl⟩
    rw [show ({} : Gathered) = ⟨[], acceptedFields entries []⟩ from rfl, gathered fits] at accepts
    obtain ⟨result, accepted⟩ := accepts.mpr ⟨rfl, known, conditions⟩
    have same := assemble_eq_ok accepted
    rw [show ({} : Gathered) = ⟨[], acceptedFields entries []⟩ from rfl, gathered fits] at same
    rw [accepted, same]

/-- An object passes a model exactly when it fits the model and every known key passes its form. -/
theorem assemble_passes_iff (json : (Value.mapping entries).IsJson) :
    (∃ result, name.assemble (entryOutcomes name.definition entries) = .ok result) ↔
      name.definition.Fits .validation entries ∧
        ∀ part ∈ (Form.model name).parts (.mapping entries), part.2.Passes part.1 := by
  have passes : (∀ part ∈ (Form.model name).parts (.mapping entries), part.2.Passes part.1) ↔
      ∀ field ∈ name.definition.fields, ∀ value, lookupText field.name entries = some value →
        value.Passes field.form := by
    constructor
    · intro each field inFields value given
      exact each (field.form, value)
        (Form.mem_parts_model.mpr ⟨field, inFields, rfl, lookupText_eq_some_mem given⟩)
    · rintro each ⟨form, value⟩ membership
      obtain ⟨field, inFields, rfl, given⟩ := Form.mem_parts_model.mp membership
      exact each field inFields value ((lookupText_eq_some_iff json.keysDiffer).mpr given)
  simp only [assemble_entryOutcomes_eq_ok_iff, exists_and_left, exists_eq, and_true]
  rw [passes]
  constructor
  · rintro ⟨fits, known, conditions⟩
    refine ⟨⟨known, fun field inFields => (fits field inFields).given,
      fun field inFields => (fits field inFields).exclusive, fun rule membership => ?_⟩,
      fun field inFields => (fits field inFields).passes⟩
    exact (failure?_eq_none_iff fits json.keysDiffer (known (closed_of_rule membership))
      membership).mp (conditions rule membership)
  · rintro ⟨⟨known, given, exclusive, met⟩, each⟩
    have fits : ∀ field ∈ name.definition.fields, field.Fits entries := fun field inFields =>
      ⟨given field inFields, each field inFields, exclusive field inFields⟩
    refine ⟨fits, known, fun rule membership => ?_⟩
    exact (failure?_eq_none_iff fits json.keysDiffer (known (closed_of_rule membership))
      membership).mpr (met rule membership)

end

end AnimationGrammar
