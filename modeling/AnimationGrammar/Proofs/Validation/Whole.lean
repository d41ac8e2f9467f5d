import AnimationGrammar.Proofs.Validation.Assembly

/-!
Values that are looked at as a whole.

A form without parts takes a value as it stands: `Value.TakenWhole` says what the value becomes, and a value
that is not taken has one fault.  Texts may be given as bytes, there and as keys.  Free JSON is taken with all
of its parts, its keys being read as texts; what JSON itself can write stays as it is.
-/

namespace AnimationGrammar

open Outcome Value Form

/-! ### Texts and numbers -/

theorem TextRule.check_ne_missing {rule : TextRule} {text : String} :
    rule.check text ≠ .error .missing := by
  cases rule with
  | any => simp [check]
  | nonEmpty =>
      rw [check]
      split <;> simp
  | format kind =>
      rw [check]
      split <;> simp
  | animationId =>
      rw [check]
      split
      · simp
      · split <;> simp

theorem Bounds.failure?_ne_missing {bounds : Bounds} {x : Double} :
    bounds.failure? x ≠ some .missing := by
  intro failed
  simp only [failure?, Option.or_eq_some_iff, Option.bind_eq_some_iff] at failed
  rcases failed with ⟨_, _, failed⟩ | ⟨_, ⟨_, _, failed⟩ | ⟨_, ⟨_, _, failed⟩ | ⟨_, _, _, failed⟩⟩⟩ <;>
    split at failed <;> simp at failed

theorem NumberRule.check_ne_missing {rule : NumberRule} {n : Numeral} :
    rule.check n ≠ .error .missing := by
  rw [check]
  split
  · simp
  · split
    next failed =>
        rintro ⟨⟩
        exact Bounds.failure?_ne_missing failed
    · split
      · simp
      · split
        · split <;> simp
        · simp

@[simp] theorem TextRule.read_text (rule : TextRule) (content : String) :
    rule.read (.text content) = rule.check content := rfl

theorem TextRule.read_eq_ok_iff {rule : TextRule} {value : Value} {checked : String} :
    rule.read value = .ok checked ↔
      ∃ content, value.readText = .ok content ∧ rule.check content = .ok checked := by
  rw [read]
  cases value.readText with
  | ok content => simp [Except.bind]
  | error cause => simp [Except.bind]

theorem TextRule.exists_atom_of_read {rule : TextRule} {value : Value} {checked : String}
    (passed : rule.read value = .ok checked) : ∃ a, value = .atom a := by
  obtain ⟨content, reading, _⟩ := read_eq_ok_iff.mp passed
  cases value with
  | atom a => exact ⟨a, rfl⟩
  | _ => simp [readText] at reading

theorem Value.readText_ne_missing {value : Value} : value.readText ≠ .error .missing := by
  unfold readText
  split
  · simp
  next bytes => cases Utf8.decode bytes <;> simp [Except.mapError]
  · simp

theorem TextRule.read_ne_missing {rule : TextRule} {value : Value} :
    rule.read value ≠ .error .missing := by
  rw [read]
  cases reading : value.readText with
  | ok content => exact check_ne_missing
  | error cause =>
      rintro ⟨⟩
      exact readText_ne_missing reading

theorem Value.IsJson.readText_eq_ok_iff {value : Value} {content : String} (json : value.IsJson) :
    value.readText = .ok content ↔ value = .text content := by
  cases value with
  | atom a =>
      cases a with
      | text name => simp [readText]
      | bytes content => exact absurd json.node id
      | _ => simp [readText]
  | _ => simp [readText]

/-! ### Values without parts -/

theorem Dispatch.refusal_ne_missing {dispatch : Dispatch} {labels : List String} {value : Value} :
    dispatch.refusal labels value ≠ .missing := by
  cases dispatch with
  | type =>
      cases value with
      | mapping entries =>
          rw [refusal]
          split <;> simp
      | record model fields =>
          rw [refusal]
          split <;> simp
      | atom a => simp [refusal]
      | list items => simp [refusal]
      | tuple items => simp [refusal]
  | kind => simp [refusal]
  | operator => simp [refusal]
  | length => simp [refusal]

/-- What a value becomes that is looked at as a whole. -/
inductive Value.TakenWhole : Form → Value → Value → Prop
  | text {rule value checked} : rule.read value = .ok checked →
      TakenWhole (.text rule) value (.text checked)
  | number {rule n m} : rule.check n = .ok m → TakenWhole (.number rule) (.number n) (.number m)
  | literal {choices content} : content ∈ choices →
      TakenWhole (.literal choices) (.text content) (.text content)
  | flag : TakenWhole .flag (.boolean true) (.boolean true)
  | one {n} : n.isEqual (.integer 1) = true → TakenWhole .flag (.number n) (.boolean true)
  | anyJson {value} : TakenWhole .anyJson value value
  | record {name fields} : TakenWhole (.model name) (.record name fields) (.record name fields)

theorem Value.checkWhole_cases (value : Value) (form : Form) :
    (∃ result, TakenWhole form value result ∧ value.checkWhole form = .ok result) ∨
      ∃ cause, cause ≠ .missing ∧ value.checkWhole form = refuse cause := by
  have refused {cause : Cause} (different : cause ≠ .missing) :
      (∃ result, TakenWhole form value result ∧ refuse cause = .ok result) ∨
        ∃ other, other ≠ .missing ∧ refuse cause = refuse other :=
    .inr ⟨cause, different, rfl⟩
  cases form with
  | text rule =>
      simp only [checkWhole]
      split
      next checked passed => exact .inl ⟨_, .text passed, rfl⟩
      next cause failed => exact refused fun same => TextRule.read_ne_missing (same ▸ failed)
  | number rule =>
      simp only [checkWhole]
      split
      next n =>
          split
          next m passed => exact .inl ⟨_, .number passed, rfl⟩
          next cause failed => exact refused fun same => NumberRule.check_ne_missing (same ▸ failed)
      · exact refused (by simp)
  | literal choices =>
      simp only [checkWhole]
      split
      next content =>
          split
          next chosen => exact .inl ⟨_, .literal chosen, rfl⟩
          · exact refused (by simp)
      · exact refused (by simp)
  | flag =>
      simp only [checkWhole]
      split
      · exact .inl ⟨_, .flag, rfl⟩
      next n =>
          split
          next one => exact .inl ⟨_, .one one, rfl⟩
          · exact refused (by simp)
      · exact refused (by simp)
  | anyJson => exact .inl ⟨value, .anyJson, rfl⟩
  | model name =>
      simp only [checkWhole]
      split
      next model fields =>
          split
          next same => exact .inl ⟨_, same ▸ .record, rfl⟩
          · exact refused (by simp)
      · exact refused (by simp)
  | choice dispatch branches => exact refused Dispatch.refusal_ne_missing
  | tuple positions distinct => exact refused (by simp)
  | list item minLength unique => exact refused (by simp)
  | dictionary key item => exact refused (by simp)

theorem Value.checkWhole_eq_ok_iff {value result : Value} {form : Form} :
    value.checkWhole form = .ok result ↔ TakenWhole form value result := by
  constructor
  · intro accepted
    rcases value.checkWhole_cases form with ⟨other, taken, same⟩ | ⟨cause, _, refused⟩
    · rw [same, Except.ok.injEq] at accepted
      exact accepted ▸ taken
    · exact absurd (refused.symm.trans accepted) refuse_ne_ok
  · intro taken
    cases taken with
    | text passed => simp [checkWhole, passed]
    | number passed => simp [checkWhole, passed]
    | literal chosen => simp [checkWhole, chosen]
    | flag => rfl
    | one one => simp [checkWhole, one]
    | anyJson => rfl
    | record => simp [checkWhole]

theorem Value.checkWhole_faults {value : Value} {form : Form} {fault : Fault}
    (reported : fault ∈ (value.checkWhole form).faults) :
    ∃ cause, fault = ⟨[], cause⟩ ∧ cause ≠ .missing := by
  rcases value.checkWhole_cases form with ⟨result, _, taken⟩ | ⟨cause, different, refused⟩
  · simp [taken, Outcome.faults] at reported
  · rw [refused, faults_refuse, List.mem_singleton] at reported
    exact ⟨cause, reported, different⟩

/-! ### Free JSON -/

theorem Atom.readText_eq_ok_iff {key : Atom} {content : String} :
    (Value.atom key).readText = .ok content ↔ key.asText = .text content := by
  cases key with
  | text name => simp [Value.readText]
  | bytes content =>
      cases decoded : Utf8.decode content <;>
        simp [Value.readText, asText, decoded, Except.mapError]
  | _ => simp [Value.readText, asText]

theorem TextRule.checkKey_eq_nil {rule : TextRule} {key : Atom} :
    rule.checkKey key = [] ↔ ∃ checked, rule.read (.atom key) = .ok checked := by
  rw [checkKey]
  cases rule.read (.atom key) <;> simp

theorem TextRule.checkKey_any_eq_nil_iff {key : Atom} :
    TextRule.any.checkKey key = [] ↔ ∃ name, key.asText = .text name := by
  simp [checkKey_eq_nil, read_eq_ok_iff, check, Atom.readText_eq_ok_iff]

namespace Value

theorem jsonItemFaults_eq_nil_iff {items : List Value} {position : Nat} :
    jsonItemFaults position items = [] ↔ ∀ item ∈ items, item.jsonFaults = [] := by
  induction items generalizing position with
  | nil => simp [jsonItemFaults]
  | cons item rest inductionHypothesis =>
      rw [jsonItemFaults, List.append_eq_nil_iff, List.map_eq_nil_iff, inductionHypothesis,
        List.forall_mem_cons]

theorem jsonEntryFaults_eq_nil_iff {entries : List (Atom × Value)} :
    jsonEntryFaults entries = [] ↔
      ∀ entry ∈ entries, (∃ name, entry.1.asText = .text name) ∧ entry.2.jsonFaults = [] := by
  induction entries with
  | nil => simp [jsonEntryFaults]
  | cons entry rest inductionHypothesis =>
      rcases entry with ⟨key, value⟩
      rw [jsonEntryFaults, List.append_eq_nil_iff, List.append_eq_nil_iff,
        TextRule.checkKey_any_eq_nil_iff, List.map_eq_nil_iff, inductionHypothesis,
        List.forall_mem_cons]

theorem jsonFaults_list_iff {items : List Value} :
    (Value.list items).jsonFaults = [] ↔ ∀ item ∈ items, item.jsonFaults = [] := by
  rw [jsonFaults, List.map_eq_nil_iff, jsonItemFaults_eq_nil_iff]

theorem jsonFaults_mapping_iff {entries : List (Atom × Value)} :
    (Value.mapping entries).jsonFaults = [] ↔
      ∀ entry ∈ entries, (∃ name, entry.1.asText = .text name) ∧ entry.2.jsonFaults = [] := by
  rw [jsonFaults, List.map_eq_nil_iff, jsonEntryFaults_eq_nil_iff]

theorem IsJson.jsonFaults_eq_nil {value : Value} (json : value.IsJson) : value.jsonFaults = [] := by
  induction value, json using jsonInduction with
  | atom a json =>
      cases a with
      | time value => exact absurd json.node id
      | bytes content => exact absurd json.node id
      | _ => rfl
  | list items json inductionHypothesis => exact jsonFaults_list_iff.mpr inductionHypothesis
  | mapping entries json inductionHypothesis =>
      exact jsonFaults_mapping_iff.mpr fun entry membership =>
        ⟨json.key_asText membership, inductionHypothesis entry membership⟩

theorem itemsWithTextKeys_eq (items : List Value) :
    itemsWithTextKeys items = items.map withTextKeys := by
  induction items with
  | nil => rw [itemsWithTextKeys, List.map_nil]
  | cons item rest inductionHypothesis => rw [itemsWithTextKeys, inductionHypothesis, List.map_cons]

theorem entriesWithTextKeys_eq (entries : List (Atom × Value)) :
    entriesWithTextKeys entries = entries.map fun entry => (entry.1.asText, entry.2.withTextKeys) := by
  induction entries with
  | nil => rw [entriesWithTextKeys, List.map_nil]
  | cons entry rest inductionHypothesis =>
      rw [entriesWithTextKeys, inductionHypothesis, List.map_cons]

/-- The keys of JSON are texts already. -/
theorem IsJson.keys_asText {β : Type} {entries : List (Atom × Value)}
    (json : (Value.mapping entries).IsJson) (f : Value → β) :
    (entries.map fun entry => (entry.1.asText, f entry.2)) =
      entries.map fun entry => (entry.1, f entry.2) := by
  refine List.map_congr_left fun entry membership => ?_
  obtain ⟨name, named⟩ := json.key membership
  rw [named, Atom.asText_text]

theorem IsJson.withTextKeys_eq {value : Value} (json : value.IsJson) : value.withTextKeys = value := by
  induction value, json using jsonInduction with
  | atom a json => rfl
  | list items json inductionHypothesis =>
      rw [withTextKeys, itemsWithTextKeys_eq, List.map_congr_left inductionHypothesis, List.map_id']
  | mapping entries json inductionHypothesis =>
      have same (entry : Atom × Value) (membership : entry ∈ entries) :
          (entry.1, entry.2.withTextKeys) = entry := by
        rw [inductionHypothesis entry membership]
      rw [withTextKeys, entriesWithTextKeys_eq, json.keys_asText withTextKeys, List.map_congr_left same,
        List.map_id']

theorem withTextKeys_withTextKeys (value : Value) :
    value.withTextKeys.withTextKeys = value.withTextKeys := by
  induction value using layerInduction with
  | atom | tuple | record => rfl
  | list items inductionHypothesis =>
      rw [withTextKeys, itemsWithTextKeys_eq, withTextKeys, itemsWithTextKeys_eq, List.map_map]
      exact congrArg Value.list (List.map_congr_left inductionHypothesis)
  | mapping entries inductionHypothesis =>
      rw [withTextKeys, entriesWithTextKeys_eq, withTextKeys, entriesWithTextKeys_eq, List.map_map]
      refine congrArg Value.mapping (List.map_congr_left fun entry membership => ?_)
      simp [inductionHypothesis entry membership]

theorem jsonFaults_withTextKeys {value : Value} (free : value.jsonFaults = []) :
    value.withTextKeys.jsonFaults = [] := by
  induction value using layerInduction with
  | atom | tuple | record => exact free
  | list items inductionHypothesis =>
      rw [jsonFaults_list_iff] at free
      rw [withTextKeys, itemsWithTextKeys_eq, jsonFaults_list_iff, List.forall_mem_map]
      exact fun item membership => inductionHypothesis item membership (free item membership)
  | mapping entries inductionHypothesis =>
      rw [jsonFaults_mapping_iff] at free
      rw [withTextKeys, entriesWithTextKeys_eq, jsonFaults_mapping_iff, List.forall_mem_map]
      intro entry membership
      obtain ⟨named, freeToo⟩ := free entry membership
      exact ⟨by rwa [Atom.asText_asText], inductionHypothesis entry membership freeToo⟩

theorem checkJson_eq_ok_iff {value result : Value} :
    value.checkJson = .ok result ↔ value.jsonFaults = [] ∧ value.withTextKeys = result := by
  unfold checkJson
  split
  next free => simp [free]
  next given => simpa using fun free => absurd free given

theorem IsJson.checkJson_eq {value : Value} (json : value.IsJson) : value.checkJson = .ok value :=
  checkJson_eq_ok_iff.mpr ⟨json.jsonFaults_eq_nil, json.withTextKeys_eq⟩

theorem checkJson_again {value result : Value} (accepted : value.checkJson = .ok result) :
    result.checkJson = .ok result := by
  obtain ⟨free, rfl⟩ := checkJson_eq_ok_iff.mp accepted
  exact checkJson_eq_ok_iff.mpr ⟨jsonFaults_withTextKeys free, withTextKeys_withTextKeys value⟩

end Value

end AnimationGrammar
