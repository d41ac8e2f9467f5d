import AnimationGrammar.Validation.Document
import AnimationGrammar.Proofs.Validation.Location

/-!
Paths of issues.

`retrace` knows neither the form nor which steps of a location are labels.  On a value with clear types
it still finds the place of every fault: no name of a field is a label there, so a label can only be
mistaken for an unknown key, and an unknown key is always the last step.
-/

namespace AnimationGrammar

open Outcome Value Form

def Step.place? : Step → Option Atom
  | .label _ => none
  | step => some step.item

/-- The keys and positions by which validation reached a fault. -/
def Fault.place (fault : Fault) : Path := fault.location.filterMap Step.place?

/-- The value that a path leads to. -/
def Value.follow? : Path → Value → Option Value
  | [], value => some value
  | step :: rest, value => (value.enter? step).bind (follow? rest)

/-- Whether a path leads to where a fault can be: to a part of the value, or to a missing one. -/
def Fault.IsPlaced (value : Value) (fault : Fault) : Prop :=
  if fault.cause = .missing then
    ∃ outer step inner, fault.place = outer ++ [step] ∧ value.follow? outer = some inner ∧
      inner.enter? step = none
  else ∃ part, value.follow? fault.place = some part

def Value.typeTag? : Value → Option String
  | .mapping entries =>
      match lookupText "type" entries with
      | some (.text tag) => some tag
      | _ => none
  | _ => none

/-- No object names, as its type, a field that some model has. -/
def Value.HasClearTypes (value : Value) : Prop :=
  ∀ part, IsPartOf part value → ∀ tag ∈ part.typeTag?, tag ∉ declaredNames

instance Value.decidableHasClearTypes (value : Value) : Decidable value.HasClearTypes :=
  inferInstanceAs
    (Decidable (∀ part, IsPartOf part value → ∀ tag ∈ part.typeTag?, tag ∉ declaredNames))

theorem Value.HasClearTypes.part {part value : Value} (clear : value.HasClearTypes)
    (inside : IsPartOf part value) : part.HasClearTypes :=
  fun inner reached => clear inner (reached.trans inside)

theorem Value.HasClearTypes.undeclared {entries : List (Atom × Value)}
    (clear : (Value.mapping entries).HasClearTypes) {tag : String}
    (looked : lookupText "type" entries = some (.text tag)) : tag ∉ declaredNames := by
  apply clear _ .self
  rw [typeTag?, looked]
  rfl

theorem Value.IsPartOf.of_lookupText {name : String} {entries : List (Atom × Value)} {part : Value}
    (looked : lookupText name entries = some part) : IsPartOf part (.mapping entries) :=
  .entry (lookupText_eq_some_mem looked) .self

theorem Value.IsPartOf.of_getElem? {items : List Value} {position : Nat} {part : Value}
    (found : items[position]? = some part) : IsPartOf part (.list items) :=
  .item (List.mem_of_getElem? found) .self

@[simp] theorem Fault.place_label (label : String) (fault : Fault) :
    (fault.under (.label label)).place = fault.place := rfl

@[simp] theorem Fault.place_key (name : String) (fault : Fault) :
    (fault.under (.key (.text name))).place = .text name :: fault.place := rfl

@[simp] theorem Fault.place_index (position : Nat) (fault : Fault) :
    (fault.under (.index position)).place = .number (.integer position) :: fault.place := rfl

@[simp] theorem Value.enter?_index (items : List Value) (position : Nat) :
    (Value.list items).enter? (.number (.integer position)) = items[position]? := by
  simp [enter?, Atom.position?]

/-! ### Every located fault lies somewhere -/

theorem Fault.IsPlaced.step {value part : Value} {step : Step} {fault : Fault}
    (entered : value.enter? step.item = some part)
    (placed : (fault.under step).place = step.item :: fault.place)
    (inside : fault.IsPlaced part) : (fault.under step).IsPlaced value := by
  have sameCause : (fault.under step).cause = fault.cause := rfl
  rw [IsPlaced, placed, sameCause]
  rw [IsPlaced] at inside
  by_cases missing : fault.cause = .missing
  · rw [if_pos missing] at inside ⊢
    obtain ⟨outer, last, inner, equality, reached, absent⟩ := inside
    refine ⟨step.item :: outer, last, inner, ?_, ?_, absent⟩
    · rw [equality, List.cons_append]
    · simp [follow?, entered, reached]
  · rw [if_neg missing] at inside ⊢
    obtain ⟨reached, followed⟩ := inside
    exact ⟨reached, by simp [follow?, entered, followed]⟩

theorem Locates.isPlaced {value : Value} {fault : Fault} (located : Locates value fault) :
    fault.IsPlaced value := by
  induction located with
  | @whole value cause different =>
      rw [Fault.IsPlaced, if_neg different]
      exact ⟨value, rfl⟩
  | branch _ _ _ inductionHypothesis => exact inductionHypothesis
  | @given entries name part cause looked different =>
      rw [Fault.IsPlaced, if_neg different]
      refine ⟨part, ?_⟩
      simp [Fault.place, Step.place?, Step.item, follow?, enter?, looked]
  | @absentField entries name declared absent =>
      rw [Fault.IsPlaced, if_pos rfl]
      exact ⟨[], .text name, .mapping entries, rfl, rfl, absent⟩
  | @absentItem items position long =>
      rw [Fault.IsPlaced, if_pos rfl]
      refine ⟨[], .number (.integer position), .list items, rfl, rfl, ?_⟩
      simpa using long
  | @field entries name part fault _ looked _ inductionHypothesis =>
      have entered : (Value.mapping entries).enter? (Step.key (.text name)).item = some part := looked
      exact inductionHypothesis.step entered (fault.place_key name)
  | @item items position part fault found _ inductionHypothesis =>
      have entered : (Value.list items).enter? (Step.index position).item = some part := by
        rwa [Step.item, enter?_index]
      exact inductionHypothesis.step entered (fault.place_index position)

/-! ### Retracing -/

theorem operatorModel?_mem {entries : List (Atom × Value)} {name : ModelName}
    (found : operatorModel? entries = some name) : name ∈ predicateModels := by
  have operators : ∀ operator ∈ predicateOperators, operator.2 ∈ predicateModels := by
    decide +kernel
  induction entries with
  | nil => simp [operatorModel?] at found
  | cons entry rest inductionHypothesis =>
      rcases entry with ⟨key, value⟩
      cases key with
      | text keyName =>
          rw [operatorModel?, Option.or_eq_some_iff] at found
          rcases found with here | ⟨_, later⟩
          · exact operators _ (lookup_eq_some_mem here)
          · exact inductionHypothesis later
      | null => exact inductionHypothesis found
      | boolean value => exact inductionHypothesis found
      | number value => exact inductionHypothesis found
      | time value => exact inductionHypothesis found
      | bytes content => exact inductionHypothesis found

theorem Value.isTag_declared {entries : List (Atom × Value)} {name : String}
    (declared : name ∈ declaredNames)
    (clear : ∀ tag, lookupText "type" entries = some (.text tag) → tag ≠ name) :
    (Value.mapping entries).isTag (.text name) = false := by
  simp only [isTag, unionTags, decide_eq_false_iff_not, List.mem_append, not_or]
  refine ⟨⟨?_, ?_⟩, ?_⟩
  · intro membership
    simp only [kind?, Option.map_some, Option.toList_some, List.mem_singleton] at membership
    exact objectLabel_not_declared _ List.mem_cons_self (membership ▸ declared)
  · intro membership
    rw [Option.mem_toList, predicateLabel?, Option.map_eq_some_iff] at membership
    obtain ⟨model, found, rfl⟩ := membership
    refine objectLabel_not_declared _ (List.mem_cons_of_mem _ (List.mem_append_left _ ?_)) declared
    exact List.mem_map_of_mem (operatorModel?_mem found)
  · intro membership
    split at membership
    next tag looked => exact clear tag looked (List.mem_singleton.mp membership).symm
    next => simp at membership

/-- A path is found again from the location and the value alone. -/
theorem Locates.retrace_eq {value : Value} {fault : Fault} (located : Locates value fault)
    (clear : value.HasClearTypes) :
    retrace (fault.cause = .missing) fault.items value = fault.place := by
  have tagged {entries : List (Atom × Value)} {name : String}
      (clear : (Value.mapping entries).HasClearTypes) (declared : name ∈ declaredNames) :
      (Value.mapping entries).isTag (.text name) = false :=
    isTag_declared declared fun tag looked same => clear.undeclared looked (same ▸ declared)
  induction located with
  | whole => rfl
  | @branch value label fault tag nowhere _ inductionHypothesis =>
      have same : (fault.under (.label label)).items = .text label :: fault.items := rfl
      have isTag : value.isTag (.text label) = true := by simpa [isTag] using tag
      rw [same, retrace, isTag, Fault.place_label, ← inductionHypothesis clear]
      cases steps : fault.items with
      | nil =>
          have ended : fault.location = [] := by simpa [Fault.items] using steps
          simp [nowhere ended, retrace]
      | cons step rest => simp only [List.isEmpty_cons, Bool.not_false, Bool.and_self, if_true]; rfl
  | given looked _ =>
      simp [Fault.items, Fault.place, Step.place?, Step.item, retrace, enter?, looked]
  | absentField declared absent =>
      simp [Fault.items, Fault.place, Step.place?, Step.item, retrace, enter?, absent,
        tagged clear declared]
  | @absentItem items position long =>
      simp [Fault.items, Fault.place, Step.place?, Step.item, retrace, isTag, enter?,
        Atom.position?, long]
  | @field entries name part fault declared looked _ inductionHypothesis =>
      have same : (fault.under (.key (.text name))).items = .text name :: fault.items := rfl
      have entered : (Value.mapping entries).enter? (.text name) = some part := looked
      rw [same, retrace, tagged clear declared, entered, Fault.place_key,
        ← inductionHypothesis (clear.part (.of_lookupText looked))]
      rfl
  | @item items position part fault found _ inductionHypothesis =>
      have same : (fault.under (.index position)).items =
          .number (.integer position) :: fault.items := rfl
      rw [same, retrace, enter?_index, found, Fault.place_index,
        ← inductionHypothesis (clear.part (.of_getElem? found))]
      rfl

/-! ### Issues of a document -/

def valueForm (key : Atom) : Form :=
  if key = .text tokenImagesKey then .uniqueList (.model .tokenImageEntry) else .animationObjects

theorem valueForm_isRegular (key : Atom) : (valueForm key).isRegular = true := by
  rw [valueForm]
  split <;> rfl

/-- The issue that a fault is, at exactly the place to which its location leads. -/
def Fault.issueAtPlace (key : Atom) (fault : Fault) : Issue where
  kind := fault.cause.issueKind
  path := key :: fault.place
  message := fault.cause.issueMessage

def tokenImagesField : Field where
  name := tokenImagesKey
  form := valueForm (.text tokenImagesKey)
  required := true

theorem tokenImages_fields : ModelName.tokenImages.definition.fields = [tokenImagesField] := rfl

theorem tokenImages_faults {entries : List (Atom × Value)} {value : Value}
    (looked : lookupText tokenImagesKey entries = some value) :
    ((Value.mapping entries).check (.model .tokenImages)).faults =
      (value.check (valueForm (.text tokenImagesKey))).faults.map
        (Fault.under (.key (.text tokenImagesKey))) := by
  have settles : (Form.model .tokenImages).Settles (.mapping entries) [] (.model .tokenImages) :=
    .whole rfl
  have membership : tokenImagesField ∈ ModelName.tokenImages.definition.fields := by
    simp [tokenImages_fields]
  have outcome := lookupText_entryOutcomes membership entries
  simp only [tokenImagesField, looked, Option.map_some] at outcome
  rw [check_of_settles settles, underLabels, checkSettled, ModelName.assemble]
  have unknown (keys : List Atom) : ModelName.tokenImages.definition.unknownKeys keys = [] := rfl
  have noRules : ModelName.tokenImages.definition.rules = [] := rfl
  simp only [tokenImages_fields, List.foldl_cons, List.foldl_nil, unknown, noRules, Gathered.add_eq,
    tokenImagesField, outcome]
  cases value.check (valueForm (.text tokenImagesKey)) with
  | ok accepted => simp [Field.isExcluded, Field.faults, Outcome.faults]
  | error faults => cases faults <;> simp [Field.faults, Outcome.faults]

theorem issuesAt_eq {value : Value} (json : value.IsJson) (clear : value.HasClearTypes) {form : Form}
    (regular : form.isRegular = true) (key : Atom) :
    issuesAt [key] value (value.check form).faults =
      (value.check form).faults.map (Fault.issueAtPlace key) := by
  rw [issuesAt]
  refine List.map_congr_left fun fault reported => ?_
  have located := locates_of_check json _ regular fault reported
  rw [Fault.issue, Issue.below, located.retrace_eq clear]
  rfl

theorem list_fault_location {value : Value} {item : Form} {minLength : Option Nat} {unique : Bool}
    {fault : Fault} (reported : fault ∈ (value.check (.list item minLength unique)).faults) :
    fault.location = [] ∨ ∃ position rest part, fault.location = .index position :: rest ∧
      value.enter? (.number (.integer position)) = some part := by
  have settles : (Form.list item minLength unique).Settles value [] (.list item minLength unique) :=
    .whole rfl
  have ofItems {items : List Value}
      (reported : fault ∈
        (finishList items minLength unique (items.map fun part => part.check item)).faults) :
      fault.location = [] ∨ ∃ (position : Nat) (rest : List Step) (part : Value),
        fault.location = .index position :: rest ∧ items[position]? = some part := by
    rcases mem_faults_finishList reported with
      ⟨cause, rfl, _⟩ | ⟨position, part, inner, found, _, rfl⟩
    · exact .inl rfl
    · exact .inr ⟨position, inner.location, part, rfl, found⟩
  rw [check_of_settles settles, underLabels] at reported
  cases value with
  | list items => simpa using ofItems reported
  | tuple items => simpa [enter?, Atom.position?] using ofItems reported
  | _ =>
      simp only [checkSettled] at reported
      obtain ⟨cause, rfl, _⟩ := checkWhole_faults reported
      exact .inl rfl

/-- In an object of some type, a key that is called like the type can only end a path. -/
theorem retrace_of_type {missing : Bool} {entries : List (Atom × Value)} {name : String}
    (typed : lookupText "type" entries = some (.text name)) {items tail : Path}
    (path : retrace missing items (.mapping entries) = .text name :: tail) : tail = [] := by
  induction items with
  | nil => simp [retrace] at path
  | cons step rest inductionHypothesis =>
      have isTag : (Value.mapping entries).isTag (.text name) = true := by
        simp [Value.isTag, unionTags, typed]
      rw [retrace] at path
      split at path
      · exact inductionHypothesis path
      next kept =>
          split at path
          next next_ entered =>
              rw [List.cons.injEq] at path
              obtain ⟨rfl, path⟩ := path
              have ended : rest = [] := by simpa [isTag] using kept
              rw [← path, ended, retrace]
          next =>
              split at path
              · rw [List.cons.injEq] at path
                exact path.2.symm
              · exact inductionHypothesis path

/-- The path of a fault among the token images goes through their key, unless the document is of the type
that the key names and the fault lies further inside. -/
theorem tokenImages_path_iff {entries : List (Atom × Value)} {value : Value}
    (looked : lookupText tokenImagesKey entries = some value) {fault : Fault}
    (reported : fault ∈ (value.check (valueForm (.text tokenImagesKey))).faults) :
    retrace (fault.cause = .missing) (.text tokenImagesKey :: fault.items) (.mapping entries) =
        .text tokenImagesKey :: retrace (fault.cause = .missing) fault.items value ↔
      (lookupText "type" entries = some (.text tokenImagesKey) → fault.location = []) := by
  have entered : (Value.mapping entries).enter? (.text tokenImagesKey) = some value := looked
  constructor
  · intro path typed
    have ended := retrace_of_type typed path
    rcases list_fault_location reported with here | ⟨position, rest, part, inside, found⟩
    · exact here
    · simp [Fault.items, inside, Step.item, retrace, isTag, found] at ended
  · intro outermost
    by_cases typed : lookupText "type" entries = some (.text tokenImagesKey)
    · have here := outermost typed
      simp [Fault.items, here, retrace, entered]
    · have noTag : (Value.mapping entries).isTag (.text tokenImagesKey) = false := by
        refine isTag_declared ?_ ?_
        · exact ModelName.tokenImages.fieldName_declared List.mem_cons_self
        · rintro tag found rfl
          exact typed found
      rw [retrace, noTag, entered]
      rfl

/-- The issues of the token images are those of what stands under their key exactly where no path loses
the key. -/
theorem tokenImageIssues_eq_iff {entries : List (Atom × Value)} {value : Value}
    (looked : lookupText tokenImagesKey entries = some value) :
    tokenImageIssues entries =
        issuesAt [.text tokenImagesKey] value
          (value.check (valueForm (.text tokenImagesKey))).faults ↔
      (lookupText "type" entries = some (.text tokenImagesKey) →
        ∀ fault ∈ (value.check (valueForm (.text tokenImagesKey))).faults, fault.location = []) := by
  have each : ∀ fault ∈ (value.check (valueForm (.text tokenImagesKey))).faults,
      (((fault.under (.key (.text tokenImagesKey))).issue (.mapping entries)).below [] =
          (fault.issue value).below [.text tokenImagesKey] ↔
        (lookupText "type" entries = some (.text tokenImagesKey) → fault.location = [])) := by
    intro fault reported
    have sameCause : (fault.under (.key (.text tokenImagesKey))).cause = fault.cause := rfl
    have items : (fault.under (.key (.text tokenImagesKey))).items =
        .text tokenImagesKey :: fault.items := rfl
    rw [← tokenImages_path_iff looked reported]
    simp only [Fault.issue, Issue.below, Issue.mk.injEq, sameCause, items, List.nil_append,
      List.singleton_append, true_and, and_true]
  simp only [tokenImageIssues, tokenImages_faults looked, issuesAt, List.map_map, List.map_inj_left,
    Function.comp_apply]
  rw [forall₂_congr each]
  constructor
  · intro outermost typed fault reported
    exact outermost fault reported typed
  · intro outermost fault reported typed
    exact outermost typed fault reported

theorem tokenImageIssues_single (value : Value) :
    tokenImageIssues [(.text tokenImagesKey, value)] =
      issuesAt [.text tokenImagesKey] value
        (value.check (valueForm (.text tokenImagesKey))).faults := by
  have looked : lookupText tokenImagesKey [(.text tokenImagesKey, value)] = some value := by
    simp [lookupText]
  have untyped : lookupText "type" [(.text tokenImagesKey, value)] ≠
      some (.text tokenImagesKey) := by
    simp [lookupText, tokenImagesKey]
  rw [tokenImageIssues_eq_iff looked]
  exact fun typed => absurd typed untyped

/-- The issues of a key other than that of the token images lie exactly where validation found its
faults. -/
theorem entryIssues_eq {key : Atom} {value : Value} (apart : key ≠ .text tokenImagesKey)
    (json : value.IsJson) (noAlias : ∀ content, value ≠ .text content) (clear : value.HasClearTypes) :
    entryIssues key value =
      keyIssues key ++ (value.check (valueForm key)).faults.map (Fault.issueAtPlace key) := by
  have form : entryForm value = valueForm key := by
    rw [valueForm, if_neg apart, entryForm]
    exact noAlias
  rw [entryIssues, valueIssues, form, issuesAt_eq json clear (valueForm_isRegular key)]

/--
The issues of what stands under a key lie exactly where validation found its faults.  Only one thing
keeps them from it: a document whose own type names the token images hides their key from every path
that leads further inside.
-/
theorem blockIssues_eq_iff {entries : List (Atom × Value)} {key : Atom} {value : Value}
    (membership : (key, value) ∈ entries) (keysDiffer : (entries.map Prod.fst).Nodup)
    (json : value.IsJson) (noAlias : ∀ content, value ≠ .text content)
    (clear : value.HasClearTypes) :
    let faults := (value.check (valueForm key)).faults
    (blockIssues entries (key, value) =
        (if key = .text tokenImagesKey then [] else keyIssues key) ++
          faults.map (Fault.issueAtPlace key) ↔
      (key = .text tokenImagesKey → lookupText "type" entries = some (.text tokenImagesKey) →
        ∀ fault ∈ faults, fault.location = [])) ∧
    ∀ fault ∈ faults, fault.IsPlaced value := by
  intro faults
  constructor
  · rw [blockIssues]
    by_cases tokens : key = .text tokenImagesKey
    · subst tokens
      rw [if_pos rfl, if_pos rfl, List.nil_append]
      have looked := (lookupText_eq_some_iff keysDiffer).mpr membership
      rw [← issuesAt_eq json clear (valueForm_isRegular _), tokenImageIssues_eq_iff looked]
      simp [faults]
    · rw [if_neg tokens, if_neg tokens, entryIssues_eq tokens json noAlias clear]
      simp [tokens, faults]
  · intro fault reported
    exact (locates_of_check json _ (valueForm_isRegular key) fault reported).isPlaced

/-- A fade whose unknown key is called like the branch that it is in. -/
def mislabelledFade : Value :=
  .mapping [(.text "object", .mapping [(.text "type", .text "Blur")]), (.text "value", .integer 0)]

def mislabelledEntries : Value :=
  .list [.mapping [(.text "options", .mapping [(.text "fadeIn", mislabelledFade)])]]

/-- The key `object` stays in the path where it is a key and is left out where it is a label. -/
theorem blockIssues_mislabelled :
    (blockIssues [(.text "foo", mislabelledEntries)] (.text "foo", mislabelledEntries)).map
        Issue.path =
      [[.text "foo", .number (.integer 0), .text "options", .text "fadeIn", .text "value"],
       [.text "foo", .number (.integer 0), .text "options", .text "fadeIn", .text "object"]] := by
  have json : mislabelledEntries.IsJson := by decide +kernel
  have clear : mislabelledEntries.HasClearTypes := by decide +kernel
  have noAlias : ∀ content, mislabelledEntries ≠ .text content := by simp [mislabelledEntries]
  have membership : (Atom.text "foo", mislabelledEntries) ∈ [(Atom.text "foo", mislabelledEntries)] :=
    List.mem_cons_self
  have issues := (blockIssues_eq_iff membership (by simp) json noAlias clear).1.mpr
    (by simp [tokenImagesKey])
  rw [issues]
  decide +kernel

/-- Beside an alias of the token images that is called `type`, a path loses their key. -/
theorem tokenImages_path_lost :
    let value := Value.list [.integer 5]
    let entries := [(Atom.text "type", Value.text tokenImagesKey), (.text tokenImagesKey, value)]
    (entries.map Prod.fst).Nodup ∧ value.IsJson ∧ value.HasClearTypes ∧
      (blockIssues entries (.text tokenImagesKey, value)).map Issue.path = [[]] ∧
      (value.check (valueForm (.text tokenImagesKey))).faults.map
        (fun fault => (fault.issueAtPlace (.text tokenImagesKey)).path) =
          [[.text tokenImagesKey, .number (.integer 0)]] := by
  decide +kernel

end AnimationGrammar
