import AnimationGrammar.Proofs.Validation.Results

/-!
Documents against the grammar as a whole.

The grammar has one form for all animations of a document and a model for its token images.  Validation
uses the model but never the form of animations: it goes through the document key by key, and measures
every value by the branch that it has picked itself.  Both accept the same documents.
-/

namespace AnimationGrammar

open Value Form

def animationEntries (entries : List (Atom × Value)) : List (Atom × Value) :=
  entries.filter fun entry => entry.1 ≠ .text tokenImagesKey

section
variable {entries : List (Atom × Value)}

theorem animationEntries_isJson (json : (Value.mapping entries).IsJson) :
    (Value.mapping (animationEntries entries)).IsJson :=
  json.sublist (List.filter_sublist)

theorem lookupText_animationEntries (json : (Value.mapping entries).IsJson) {name : String}
    {value : Value} : lookupText name (animationEntries entries) = some value ↔
      name ≠ tokenImagesKey ∧ lookupText name entries = some value := by
  rw [lookupText_eq_some_iff (animationEntries_isJson json).keysDiffer,
    lookupText_eq_some_iff json.keysDiffer, animationEntries, List.mem_filter, and_comm]
  simp

theorem animationEntries_noTokens (json : (Value.mapping entries).IsJson) :
    (Value.mapping (animationEntries entries)).get? tokenImagesKey = none := by
  rw [get?, Option.eq_none_iff_forall_ne_some]
  intro value given
  exact ((lookupText_animationEntries json).mp given).1 rfl

theorem animationEntries_valid_iff (json : (Value.mapping entries).IsJson) :
    validate (.mapping (animationEntries entries)) = [] ↔ ∀ name value, name ≠ tokenImagesKey →
      lookupText name entries = some value → IsBlockInOrder (.mapping entries) name value := by
  have sameBlock {name : String} {value : Value} (apart : name ≠ tokenImagesKey)
      (document other : Value) :
      IsBlockInOrder document name value ↔ IsBlockInOrder other name value := by
    rw [IsBlockInOrder, IsBlockInOrder, if_neg apart, if_neg apart]
  rw [(animationEntries_isJson json).valid_iff]
  constructor
  · rintro ⟨others, same, each⟩ name value apart given
    cases same
    exact (sameBlock apart _ _).mp
      (each name value ((lookupText_animationEntries json).mpr ⟨apart, given⟩))
  · intro each
    refine ⟨_, rfl, fun name value given => ?_⟩
    obtain ⟨apart, given⟩ := (lookupText_animationEntries json).mp given
    exact (sameBlock apart _ _).mp (each name value apart given)

end

/-- A JSON document is valid exactly when it is an object, passes as animations without its token images,
and passes as token images if it has any. -/
theorem validate_iff_passes {document : Value} (json : document.IsJson) :
    validate document = [] ↔ ∃ entries, document = .mapping entries ∧
      (Value.mapping (animationEntries entries)).Passes .animations ∧
      (IsGiven entries tokenImagesKey → document.Passes (.model .tokenImages)) := by
  rw [json.valid_iff]
  refine exists_congr fun entries => and_congr_right ?_
  rintro rfl
  have animations : (Value.mapping (animationEntries entries)).Passes .animations ↔
      ∀ name value, name ≠ tokenImagesKey → lookupText name entries = some value →
        IsBlockInOrder (.mapping entries) name value := by
    rw [(animationEntries_isJson json).passes_iff_of_uniform rfl,
      ← validate_eq_nil_iff (animationEntries_isJson json) (animationEntries_noTokens json),
      animationEntries_valid_iff json]
  have tokens (value : Value) : IsBlockInOrder (.mapping entries) tokenImagesKey value ↔
      (Value.mapping entries).Passes (.model .tokenImages) := by
    rw [IsBlockInOrder, if_pos rfl, json.passes_iff (.model .tokenImages) rfl]
  rw [animations]
  constructor
  · intro each
    refine ⟨fun name value _ => each name value, fun given => ?_⟩
    obtain ⟨value, looked⟩ := Option.isSome_iff_exists.mp given
    exact (tokens value).mp (each tokenImagesKey value looked)
  · rintro ⟨others, ofTokens⟩ name value given
    by_cases apart : name = tokenImagesKey
    · subst apart
      exact (tokens value).mpr (ofTokens (Option.isSome_iff_exists.mpr ⟨value, given⟩))
    · exact others name value apart given

def mixedDocument : Value :=
  .object [("foo", .list [.object [("default", .boolean true)]]),
    (tokenImagesKey, .list [.object [("name", .text "a"), ("requires", .text "b"),
      ("uuid", .text "x.y"), ("rules", .list [.object [("value", .text "tokens/forms/wolf.webp"),
        ("animation", .object [("duration", .integer 1)])]])]])]

/-- A valid document passes as what it is put together from. -/
theorem validate_mixedDocument :
    validate mixedDocument = [] ∧ mixedDocument.Passes (.model .tokenImages) ∧
      (Value.object [("foo", .list [.object [("default", .boolean true)]])]).Passes .animations := by
  have json : mixedDocument.IsJson := by decide
  have valid : validate mixedDocument = [] := by decide +kernel
  obtain ⟨entries, same, animations, tokens⟩ := (validate_iff_passes json).mp valid
  cases same
  exact ⟨valid, tokens rfl, animations⟩

end AnimationGrammar
