import AnimationGrammar.Proofs.Playback.Assets
import AnimationGrammar.Proofs.Playback.Template

/-!
The files that the effects of an animation are given.

Files are expanded once and for all, since no choice of alternatives can make a new group.  Every effect
is given what the file of its animation expands to, and that is nothing only where the animation lists no
file.
-/

namespace AnimationGrammar

/-! ### Expanding again -/

theorem expandEntry_of_noBrace {text : String} (noBrace : '\x7b' ∉ text.toList) :
    expandEntry text = [text] := by
  unfold expandEntry
  rw [choices_of_notMem noBrace]
  simp [combinations]

/-- What an entry stands for stands for itself. -/
theorem expandEntry_of_mem {text result : String} (membership : result ∈ expandEntry text) :
    expandEntry result = [result] := by
  by_cases isEntry : TextFormat.databaseEntry.accepts text = true
  · obtain ⟨entry, rfl⟩ := databaseEntry_accepts_iff.mp isEntry
    rw [expandEntry_eq] at membership
    obtain ⟨choice, inLists, rfl⟩ := List.mem_map.mp membership
    apply expandEntry_of_noBrace
    exact entry.notMem_filled (mem_choiceLists_iff.mp inLists) (by decide)
  · have kept := expandEntry_of_refused (Bool.eq_false_of_not_eq_true isEntry)
    rw [kept, List.mem_singleton] at membership
    rw [membership, kept]

theorem expandFiles_expandFiles (files : List String) :
    expandFiles (expandFiles files) = expandFiles files := by
  have fixed : ∀ file ∈ expandFiles files, expandEntry file = [file] := by
    intro file membership
    obtain ⟨source, -, inExpansion⟩ := List.mem_flatMap.mp membership
    exact expandEntry_of_mem inExpansion
  calc expandFiles (expandFiles files)
    _ = (expandFiles files).flatMap fun file => [file] := List.flatMap_congr fixed
    _ = expandFiles files := List.flatMap_singleton' _

/-- Expanding the files that a text or a list of texts stands for changes nothing. -/
theorem expandFiles_isIdempotent (file : Value) :
    let files := expandFiles (textList file)
    expandFiles (textList (.list (files.map Value.text))) = files := by
  intro files
  rw [HoldsAssets.several.textList_eq]
  exact expandFiles_expandFiles (textList file)

/-! ### Files that an animation names -/

theorem expandFiles_eq_nil_iff {files : List String} : expandFiles files = [] ↔ files = [] := by
  constructor
  · intro nothing
    have counted := length_le_expandFiles files
    rw [nothing] at counted
    exact List.eq_nil_of_length_eq_zero (Nat.le_zero.mp counted)
  · rintro rfl
    rfl

theorem HoldsAssets.eq_nil_iff {file : Value} {assets : List String} (holds : HoldsAssets file assets) :
    assets = [] ↔ file = .list [] := by
  cases holds with
  | single => simp
  | several => simp

/-- A validated file is the empty list only where the empty list was given. -/
theorem Admits.checked_files_eq_nil_iff {file : Value} (admits : Admits .validation .files file)
    (json : file.IsJson) : file.checked .files = .list [] ↔ file = .list [] := by
  rw [Form.files] at admits ⊢
  obtain ⟨branch, membership, inner, same⟩ := admits.checked_byKind
  rw [same]
  simp only [List.mem_cons, List.not_mem_nil, or_false] at membership
  rcases membership with rfl | rfl
  · obtain ⟨⟨content, rfl, accepted⟩, -⟩ := (admits_whole_iff rfl).mp inner
    simp [Form.asset, Form.ofFormat, Value.checked_text accepted]
  · obtain ⟨⟨items, rfl, -⟩, -⟩ := (admits_whole_iff rfl).mp inner
    rw [Value.checked_list (inner.passes json rfl)]
    simp

/-! ### Runs of the preset -/

/-- A run in which every effect is given some files as soon as it is made. -/
inductive GivesFiles (files : List String) : List Call → Prop
  | nil : GivesFiles files []
  | effect {calls} : GivesFiles files calls → GivesFiles files (.effect :: .file files :: calls)
  | attachTo {target options calls} : GivesFiles files calls →
      GivesFiles files (.attachTo target options :: calls)
  | stretchTo {target options calls} : GivesFiles files calls →
      GivesFiles files (.stretchTo target options :: calls)

theorem GivesFiles.append {files : List String} {first second : List Call}
    (before : GivesFiles files first) (after : GivesFiles files second) :
    GivesFiles files (first ++ second) := by
  induction before with
  | nil => exact after
  | effect _ inductionHypothesis => exact .effect inductionHypothesis
  | attachTo _ inductionHypothesis => exact .attachTo inductionHypothesis
  | stretchTo _ inductionHypothesis => exact .stretchTo inductionHypothesis

section
variable {η σ α β : Type} {files : List String}

/-- The calls of a trace, without the handles that they are made on. -/
def Trace.made (trace : Trace η α) : List Call := trace.calls.map Prod.snd

theorem GivesFiles.andThen {first : Trace η α} {next : α → Trace η β}
    (before : GivesFiles files first.made)
    (after : ∀ found, GivesFiles files (next found).made) :
    GivesFiles files (first.andThen next).made := by
  unfold Trace.andThen
  cases first.outcome with
  | error failure => exact before
  | ok found =>
      rw [Trace.made, List.map_append]
      exact before.append (after found)

variable (sequencer : Sequencer η) (source : RandomSource σ) (animation : TemplateAnimation)

theorem givesFiles_ofPlacement {options : Value} {call : Options → Call}
    (placed : ∀ resolved, GivesFiles files [call resolved]) (receiver : η) (state : σ) :
    GivesFiles files (Trace.ofPlacement sequencer source options call receiver state).made := by
  unfold Trace.ofPlacement
  cases resolvePlacement source options state with
  | error failure => exact .nil
  | ok resolved => exact placed resolved.1

theorem givesFiles_stretchTrace (stretchTo : Option Value) (target : Target) (effect : η) (state : σ) :
    GivesFiles files (stretchTrace sequencer source stretchTo target effect state).made := by
  have stretch (options : Value) : GivesFiles files ((Trace.ofPlacement sequencer source options
      (fun resolved => .stretchTo target (attached resolved)) effect state).andThen
        fun result => ⟨[], .ok result.2⟩).made :=
    .andThen (givesFiles_ofPlacement sequencer source (fun _ => .stretchTo .nil) effect state)
      fun _ => .nil
  unfold stretchTrace
  cases stretchTo with
  | some options => exact stretch options
  | none =>
      simp only
      split
      · exact .nil
      · exact stretch .null
      · exact .nil

theorem givesFiles_targetTrace (sequence : η) (target : Target) (state : σ) :
    GivesFiles files (targetTrace sequencer source files animation sequence target state).made := by
  refine .andThen (.effect .nil) fun state => .andThen ?_ fun ⟨effect, state⟩ => ?_
  · exact givesFiles_ofPlacement sequencer source (fun _ => .attachTo .nil) _ state
  · exact givesFiles_stretchTrace sequencer source animation.stretchTo target effect state

theorem givesFiles_targetsTrace (sequence : η) (targets : List Target) (state : σ) :
    GivesFiles files (targetsTrace sequencer source files animation sequence targets state).made := by
  induction targets generalizing state with
  | nil => exact .nil
  | cons target rest inductionHypothesis =>
      exact .andThen (givesFiles_targetTrace sequencer source animation sequence target state)
        inductionHypothesis

end

/-- Every effect that is made for a validated animation is given what the file expands to, and it is given
some file exactly when the file is not the empty list. -/
theorem files_given_iff {value animation : Value} (json : value.IsJson)
    (validated : value.check (.model .referenceObject) = .ok animation) :
    ∃ file, animation.get? "file" = some file ∧
      (∀ {η σ : Type} (sequencer : Sequencer η) (source : RandomSource σ) (targets : List Target)
        (sequence : η) (state : σ), GivesFiles (expandFiles (textList file))
          (templateTrace sequencer source (.ofRecord animation) targets sequence state).made) ∧
      (expandFiles (textList file) ≠ [] ↔ value.get? "file" ≠ some (.list [])) := by
  obtain ⟨file, assets, given, holds⟩ := (json.isSound.conforms validated).file
  refine ⟨file, given, ?_, ?_⟩
  · intro η σ sequencer source targets sequence state
    have files : (TemplateAnimation.ofRecord animation).files = some (textList file) := by
      rw [TemplateAnimation.ofRecord, given, Option.map_some]
    rw [templateTrace, files]
    exact .andThen (givesFiles_targetsTrace sequencer source _ sequence targets state) fun _ => .nil
  · obtain ⟨passes, rfl⟩ := Value.check_eq_ok_iff.mp validated
    have admits := (json.passes_iff_of_uniform rfl).mp passes
    have declared : ModelName.referenceObject.definition.formOf? (.text "file") = some .files := rfl
    have made := admits.get?_checked json declared
    rw [given, eq_comm, Option.map_eq_some_iff] at made
    obtain ⟨raw, named, rfl⟩ := made
    rw [not_iff_not, expandFiles_eq_nil_iff, holds.textList_eq, holds.eq_nil_iff, named,
      Option.some.injEq]
    exact (admits.of_get? declared named).checked_files_eq_nil_iff (json.get? named)

theorem files_given_besideTemplate :
    let animation := besideTemplate.checked (.model .referenceObject)
    let target := Target.data (.object [("t", .text "ray")])
    ∃ file, animation.get? "file" = some file ∧ expandFiles (textList file) ≠ [] ∧
      GivesFiles (expandFiles (textList file))
        (templateTrace (fun handle _ => handle + 1) .ofList (.ofRecord animation) [target, target] 0
          [.zero, .zero]).made := by
  intro animation target
  have json : besideTemplate.IsJson := by decide
  have passes : besideTemplate.Passes (.model .referenceObject) := by decide +kernel
  obtain ⟨file, named, gives, given⟩ := files_given_iff json passes.check_eq
  exact ⟨file, named, given.mpr (by simp [besideTemplate, Value.object, Value.get?, lookupText]),
    gives (fun handle _ => handle + 1) .ofList [target, target] 0 [.zero, .zero]⟩

def withoutFiles : Value :=
  .object [("trigger", .text "place-template"), ("preset", .text "template"), ("file", .list [])]

/-- An empty list of files is accepted, and the effect is given none. -/
theorem not_files_given_emptyList :
    let animation := withoutFiles.checked (.model .referenceObject)
    let target := Target.data (.object [("t", .text "circle")])
    withoutFiles.check (.model .referenceObject) = .ok animation ∧
      (animation.get? "file").map (fun file => expandFiles (textList file)) = some [] ∧
      (templateTrace (fun handle _ => handle + 1) .ofList (.ofRecord animation) [target] 0 []).made =
        [.effect, .file [], .attachTo target []] := by
  intro animation target
  have passes : withoutFiles.Passes (.model .referenceObject) := by decide +kernel
  refine ⟨passes.check_eq, by decide +kernel, ?_⟩
  rfl

end AnimationGrammar
