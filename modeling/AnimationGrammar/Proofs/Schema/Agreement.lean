import AnimationGrammar.Proofs.Schema.Meaning
import AnimationGrammar.Proofs.Schema.Published
import AnimationGrammar.Proofs.Validation.Acceptance
import AnimationGrammar.Proofs.Validation.Readings

/-!
The published schemas beside validation.

A published schema accepts what its form admits under the reading of schemas.  So a document that
validation accepts follows its schema but for the flags that are written as the number one, and a
document that follows its schema is accepted by validation but for integers that no double holds and
for delays that are out of order.
-/

namespace AnimationGrammar

open SchemaDocument

/-- Whether a value follows the published schema of a grammar, read as the JSON document that it is. -/
def SchemaName.Accepts (name : SchemaName) (value : Value) : Prop :=
  name.schema.IsFollowedBy value

theorem Form.block_isRegular : Form.block.isRegular = true := by
  decide

theorem Form.references_animations :
    Schema.references Form.animations.schema = Form.block.references := by
  rw [animations_eq, schema, ← references_schema _ block_isRegular]
  simp [Schema.references, Schema.keywordReferences]

theorem Form.block_refersWithin : Form.block.RefersWithin definedNames := by
  unfold RefersWithin
  decide

theorem ModelName.label_defined (name : ModelName) : name.label ∈ definedNames :=
  List.mem_cons_of_mem _ (List.mem_map.mpr ⟨name, name.mem_all, rfl⟩)

theorem accepts_model_iff {value : Value} (json : value.IsJson) (name : ModelName) :
    (ofForm (.model name)).Accepts value ↔ Admits .schema (.model name) value := by
  rw [ofForm]
  split
  · have references : Schema.references (Form.model name).schema = [name.label] := rfl
    have defined : ∀ reference ∈ Schema.references (Form.model name).schema,
        reference ∈ definedNames := by
      rw [references, List.forall_mem_singleton]
      exact name.label_defined
    apply closing_accepts_iff defined
    intro meaning agrees
    apply agrees.holds_iff json (.model name) rfl
    intro reference inside
    exact (reached_closed defined).1 reference inside
  · have defined : ∀ reference ∈ Schema.references name.schema, reference ∈ definedNames := by
      rw [name.references_schema]
      intro reference inside
      obtain ⟨field, inFields, inside⟩ := List.mem_flatMap.mp inside
      exact name.reference_defined field inFields reference inside
    apply closing_accepts_iff defined
    intro meaning agrees
    apply holds_model_iff agrees json name
    intro field inFields reference inside
    apply (reached_closed defined).1
    rw [name.references_schema, List.mem_flatMap]
    exact ⟨field, inFields, inside⟩

theorem accepts_animations_iff {value : Value} (json : value.IsJson) :
    (ofForm .animations).Accepts value ↔ Admits .schema .animations value := by
  have defined : ∀ reference ∈ Schema.references Form.animations.schema,
      reference ∈ definedNames := by
    rw [Form.references_animations]
    exact Form.block_refersWithin
  have within : Form.block.RefersWithin (reached Form.animations.schema) := by
    intro reference inside
    apply (reached_closed defined).1
    rw [Form.references_animations]
    exact inside
  apply closing_accepts_iff defined
  intro meaning agrees
  rw [Form.animations_eq, Form.holds_dictionary_iff json, admits_whole_iff rfl]
  refine and_congr_right fun _ => forall₂_congr fun part membership => ?_
  obtain ⟨inner, place⟩ := part
  cases Form.mem_parts_iff.mp membership with
  | entry =>
      exact agrees.holds_iff (json.part (Form.isPartOf_of_mem_parts membership)) .block
        Form.block_isRegular within

/-- A published schema accepts what its form admits. -/
theorem SchemaName.accepts_iff {value : Value} (json : value.IsJson) (name : SchemaName) :
    name.Accepts value ↔ Admits .schema name.form value := by
  rw [Accepts, schema, Form.isFollowedBy_publishedSchema_iff]
  cases name with
  | animations => exact accepts_animations_iff json
  | tokenImages => exact accepts_model_iff json .tokenImages

theorem SchemaName.form_isUniform (name : SchemaName) : name.form.isUniform = true := by
  cases name with
  | animations => exact Form.block_isRegular
  | tokenImages => rfl

/-! ### From validation to schemas -/

theorem Visits.tokenImages_flag {value place : Value} :
    ¬ Visits (.model .tokenImages) value .flag place := by
  intro visits
  have serves := visits.servesTokenImages .flag List.mem_cons_self
  simp [Form.servesTokenImages] at serves

/-- A valid document follows the schema of animations exactly when every flag in it is the value true,
and token images that pass follow theirs. -/
theorem SchemaName.accepts_of_valid {document : Value} (json : document.IsJson) :
    (document.get? tokenImagesKey = none → validate document = [] →
      (animations.Accepts document ↔
        ∀ place, Visits animations.form document .flag place → place = .boolean true)) ∧
    (document.Passes tokenImages.form → tokenImages.Accepts document) := by
  constructor
  · intro noTokens valid
    rw [accepts_iff json]
    apply Admits.toSchema_iff json animations.form_isUniform
    exact (validate_eq_nil_iff json noTokens).mp valid
  · intro passes
    rw [accepts_iff json]
    have admits := (json.passes_iff tokenImages.form rfl).mp passes
    rw [admits.toSchema_iff json tokenImages.form_isUniform]
    intro place visits
    exact absurd visits Visits.tokenImages_flag

/-- A default animation that repeats. -/
def repeatingDocument : Value :=
  .object [("foo", .list [.object [("default", .boolean true), ("options", .object [("repeats",
    .object [("count", .integer 2), ("delayMin", .integer 2), ("delayMax", .integer 3)])])]])]

def wolfImages : Value :=
  .object [(tokenImagesKey, .list [.object [("name", .text "a"), ("requires", .text "b"),
    ("uuid", .text "x.y"), ("rules", .list [.object [("value", .text "tokens/forms/wolf.webp"),
      ("animation", .object [("duration", .integer 1)])]])]])]

theorem repeatingDocument_isJson : repeatingDocument.IsJson := by decide

theorem repeatingDocument_valid : validate repeatingDocument = [] := by decide +kernel

theorem repeatingDocument_flags : ∀ place,
    Visits SchemaName.animations.form repeatingDocument .flag place → place = .boolean true := by
  have noTokens : repeatingDocument.get? tokenImagesKey = none := rfl
  have admits := (validate_eq_nil_iff repeatingDocument_isJson noTokens).mp repeatingDocument_valid
  exact admits.flags_true (by decide +kernel)

theorem wolfImages_isJson : wolfImages.IsJson := by decide

theorem wolfImages_passes : wolfImages.Passes SchemaName.tokenImages.form := by
  apply (Value.givesReason _ _ rfl).faults_eq_nil_iff.mp
  decide +kernel

/-- A valid document and token images that pass follow their schemas. -/
theorem SchemaName.accepts_repeatingDocument :
    animations.Accepts repeatingDocument ∧ tokenImages.Accepts wolfImages := by
  have noTokens : repeatingDocument.get? tokenImagesKey = none := rfl
  exact ⟨((accepts_of_valid repeatingDocument_isJson).1 noTokens repeatingDocument_valid).mpr
      repeatingDocument_flags,
    (accepts_of_valid wolfImages_isJson).2 wolfImages_passes⟩

/-- A default animation whose flag is written as a number. -/
def numberedFlag : Value := .object [("foo", .list [.object [("default", .integer 1)]])]

/-- Validation takes a flag that is written as a number, and the schema does not. -/
theorem SchemaName.numberedFlag_refused :
    numberedFlag.IsJson ∧ numberedFlag.get? tokenImagesKey = none ∧ validate numberedFlag = [] ∧
      ¬ animations.Accepts numberedFlag := by
  have json : numberedFlag.IsJson := by decide
  refine ⟨json, rfl, by decide +kernel, fun accepts => ?_⟩
  have inObject : (Form.flag, Value.integer 1) ∈
      (Form.model .animationObject).parts (.object [("default", .integer 1)]) :=
    List.mem_singleton.mpr rfl
  have inList : (Form.model .animationObject, Value.object [("default", .integer 1)]) ∈
      Form.animationObjects.parts (.list [.object [("default", .integer 1)]]) :=
    List.mem_singleton.mpr rfl
  have inDocument : (Form.block, Value.list [.object [("default", .integer 1)]]) ∈
      Form.animations.parts numberedFlag :=
    List.mem_singleton.mpr rfl
  have visits : Visits .animations numberedFlag .flag (.integer 1) :=
    .part inDocument (.branch rfl rfl (.part inList (.part inObject (.here rfl))))
  have isTrue : Value.integer 1 = .boolean true :=
    ((accepts_iff json animations).mp accepts).fits visits
  simp at isTrue

/-! ### From schemas to validation -/

theorem rollOption_refuses_tokenImages : TextFormat.rollOption.accepts tokenImagesKey = false := by
  decide

theorem Admits.no_tokenImages {reading : Reading} {document : Value}
    (admits : Admits reading .animations document) : document.get? tokenImagesKey = none := by
  obtain ⟨⟨entries, rfl, keys⟩, _⟩ := (admits_whole_iff rfl).mp admits
  rw [Value.get?, lookupText_eq_none_iff]
  intro entry membership named
  obtain ⟨content, same, accepted⟩ := keys entry membership
  rw [named, Atom.text.injEq] at same
  rw [← same] at accepted
  exact Bool.false_ne_true (rollOption_refuses_tokenImages.symm.trans accepted)

theorem Visits.tokenImages_repetition {value place : Value} :
    ¬ Visits (.model .tokenImages) value (.model .repeatOptions) place := by
  intro visits
  have serves := visits.servesTokenImages (.model .repeatOptions) List.mem_cons_self
  simp [Form.servesTokenImages, tokenImageModels] at serves

/-- A document that follows its schema is accepted by validation, as far as doubles hold its integers
and its delays are in order. -/
theorem SchemaName.valid_of_accepts :
    (∀ document : Value, document.IsJson → document.HasExactIntegers →
      document.RepeatsInOrder → animations.Accepts document → validate document = []) ∧
    ∀ document : Value, document.IsJson → document.HasExactIntegers →
      tokenImages.Accepts document → document.Passes tokenImages.form := by
  constructor
  · intro document json exact inOrder accepts
    rw [accepts_iff json] at accepts
    rw [validate_eq_nil_iff json accepts.no_tokenImages]
    apply accepts.toValidation json exact animations.form_isUniform
    intro options visits
    apply visits.ordered json exact inOrder
    decide
  · intro document json exact accepts
    rw [accepts_iff json] at accepts
    rw [json.passes_iff tokenImages.form rfl]
    apply accepts.toValidation json exact tokenImages.form_isUniform
    intro options visits
    exact absurd visits Visits.tokenImages_repetition

/-- A document and token images that follow their schemas are accepted by validation. -/
theorem SchemaName.repeatingDocument_passes :
    validate repeatingDocument = [] ∧ wolfImages.Passes tokenImages.form := by
  have accepts : animations.Accepts repeatingDocument := by
    have noTokens : repeatingDocument.get? tokenImagesKey = none := rfl
    have admits := (validate_eq_nil_iff repeatingDocument_isJson noTokens).mp repeatingDocument_valid
    rw [accepts_iff repeatingDocument_isJson]
    exact (admits.toSchema_iff repeatingDocument_isJson animations.form_isUniform).mpr
      repeatingDocument_flags
  have acceptsToo : tokenImages.Accepts wolfImages := by
    have admits := (wolfImages_isJson.passes_iff tokenImages.form rfl).mp wolfImages_passes
    rw [accepts_iff wolfImages_isJson]
    apply (admits.toSchema_iff wolfImages_isJson tokenImages.form_isUniform).mpr
    intro place visits
    exact absurd visits Visits.tokenImages_flag
  exact ⟨valid_of_accepts.1 repeatingDocument repeatingDocument_isJson (by decide +kernel)
      (by decide +kernel) accepts,
    valid_of_accepts.2 wolfImages wolfImages_isJson (by decide +kernel) acceptsToo⟩

end AnimationGrammar
