import AnimationGrammar.Playback.Template
import AnimationGrammar.Proofs.Playback.Placement
import Mathlib.Data.Set.List

/-!
The trace of the template preset.

Every target has a block of calls of its own: an effect is made of the sequence, given the files, attached,
and stretched where that is due, every call on the handle that the one before it has given back.  The trace
of a validated animation is the blocks of its targets one after the other, each on the numbers that those
before it have left, and what comes of it is the sequence that the preset was given.
-/

namespace AnimationGrammar

/-! ### Traces one after another -/

section
variable {η σ α β γ : Type}

theorem Trace.andThen_assoc (first : Trace η α) (second : α → Trace η β) (third : β → Trace η γ) :
    (first.andThen second).andThen third = first.andThen fun found => (second found).andThen third := by
  unfold Trace.andThen
  cases first.outcome with
  | error failure => rfl
  | ok found =>
      simp only
      cases (second found).outcome with
      | error failure => rfl
      | ok later => simp only [List.append_assoc]

theorem Trace.andThen_ok {first : Trace η α} {found : α} (ended : first.outcome = .ok found)
    (second : α → Trace η β) : first.andThen second =
      ⟨first.calls ++ (second found).calls, (second found).outcome⟩ := by
  rw [andThen, ended]

/-- What is found at once adds nothing to the calls that follow. -/
theorem Trace.andThen_found (found : α) (next : α → Trace η β) :
    Trace.andThen ⟨[], .ok found⟩ next = next found := by
  rw [andThen_ok rfl, List.nil_append]

variable {sequencer : Sequencer η} {source : RandomSource σ} {files : List String}
  {animation : TemplateAnimation} {sequence : η}

theorem targetsTrace_append (before after : List Target) (state : σ) :
    targetsTrace sequencer source files animation sequence (before ++ after) state =
      (targetsTrace sequencer source files animation sequence before state).andThen
        (targetsTrace sequencer source files animation sequence after) := by
  induction before generalizing state with
  | nil => exact (Trace.andThen_found state _).symm
  | cons target rest inductionHypothesis =>
      rw [List.cons_append, targetsTrace, targetsTrace, Trace.andThen_assoc]
      exact congrArg _ (funext inductionHypothesis)

/-- The targets of one list after those of another go on where those have ended: with the sequence and the
numbers that they have left. -/
theorem templateTrace_append (sequencer : Sequencer η) (source : RandomSource σ)
    (animation : TemplateAnimation) (before after : List Target) (sequence : η) (state : σ) :
    templateTrace sequencer source animation (before ++ after) sequence state =
      (templateTrace sequencer source animation before sequence state).andThen
        fun (sequence, state) => templateTrace sequencer source animation after sequence state := by
  unfold templateTrace
  cases animation.files with
  | none => rfl
  | some files =>
      simp only [targetsTrace_append, Trace.andThen_assoc, Trace.andThen_found]

end

/-! ### What an animation asks for -/

def presetOption? (animation : Value) (name : String) : Option Value :=
  ((animation.get? "options").bind (·.get? "preset")).bind (·.get? name)

def attachOptions (animation : Value) : Value := (presetOption? animation "attachTo").getD .null

def stretchOptions (animation : Value) : Value := (presetOption? animation "stretchTo").getD .null

/-- How many numbers a target takes: one for each range of the two placements. -/
def targetDraws (animation : Value) : Nat :=
  placementDraws (attachOptions animation) + placementDraws (stretchOptions animation)

/-- Whether the effect is stretched along a target: the animation says so, or the target is a line. -/
def IsStretchedAlong (animation : Value) (target : Target) : Prop :=
  (presetOption? animation "stretchTo").isSome = true ∨
    target.kind? = some (.text "ray") ∨ target.kind? = some (.text "cone")

/-- Whether the kind of a target is neither a list nor an object. -/
def Target.HasPlainKind (target : Target) : Prop :=
  ∀ kind, target.kind? = some kind → kind.kind? ≠ some .array ∧ kind.kind? ≠ some .object

/-- The assets that a file names: one, or those of a list. -/
inductive HoldsAssets : Value → List String → Prop
  | single {asset} : HoldsAssets (.text asset) [asset]
  | several {assets} : HoldsAssets (.list (assets.map Value.text)) assets

theorem ofRecord_attachTo (animation : Value) :
    (TemplateAnimation.ofRecord animation).attachTo = attachOptions animation := by
  unfold TemplateAnimation.ofRecord attachOptions presetOption?
  cases (animation.get? "options").bind (·.get? "preset") <;> rfl

theorem ofRecord_stretchTo (animation : Value) :
    (TemplateAnimation.ofRecord animation).stretchTo = presetOption? animation "stretchTo" := by
  unfold TemplateAnimation.ofRecord presetOption?
  cases (animation.get? "options").bind (·.get? "preset") <;> rfl

theorem HoldsAssets.textList_eq {file : Value} {assets : List String}
    (holds : HoldsAssets file assets) : textList file = assets := by
  cases holds with
  | single => rfl
  | several =>
      rw [textList, List.filterMap_map]
      exact List.filterMap_some

theorem Conforms.holdsAssets {file : Value} (conforms : Conforms .files file) :
    ∃ assets, HoldsAssets file assets := by
  have text {asset : Value} (isAsset : Conforms .asset asset) : ∃ content, asset = .text content := by
    cases isAsset with
    | text _ => exact ⟨_, rfl⟩
  obtain ⟨branch, inBranches, inner⟩ := conforms.branch
  simp only [List.mem_cons, List.not_mem_nil, or_false] at inBranches
  rcases inBranches with rfl | rfl
  · obtain ⟨content, rfl⟩ := text inner
    exact ⟨_, .single⟩
  · cases inner with
    | @list _ _ _ items _ each =>
        have texts : items ∈ Set.range (List.map Value.text) := by
          rw [Set.range_list_map]
          intro item membership
          obtain ⟨content, same⟩ := text (each item membership)
          exact ⟨content, same.symm⟩
        obtain ⟨contents, rfl⟩ := texts
        exact ⟨contents, .several⟩

section
variable {animation : Value} (conforms : Conforms (.model .referenceObject) animation)
include conforms

theorem Conforms.file : ∃ file assets, animation.get? "file" = some file ∧ HoldsAssets file assets := by
  obtain ⟨file, given⟩ : ∃ file, animation.get? "file" = some file := conforms.required rfl rfl
  have fileConforms : Conforms .files file := conforms.field rfl given
  obtain ⟨assets, holds⟩ := fileConforms.holdsAssets
  exact ⟨file, assets, given, holds⟩

theorem Conforms.presetOption {name : String} {form : Form} {placement : Value}
    (declared : ModelName.presetOptions.definition.formOf? (.text name) = some form)
    (given : presetOption? animation name = some placement) : Conforms form placement := by
  obtain ⟨preset, inOptions, inPreset⟩ := Option.bind_eq_some_iff.mp given
  obtain ⟨options, inAnimation, looked⟩ := Option.bind_eq_some_iff.mp inOptions
  have optionsConform : Conforms (.model .effectOptions) options := conforms.field rfl inAnimation
  have presetConforms : Conforms (.model .presetOptions) preset := optionsConform.field rfl looked
  exact presetConforms.field declared inPreset

theorem Conforms.isPlacement_attach : IsPlacement (attachOptions animation) := by
  unfold attachOptions
  cases given : presetOption? animation "attachTo" with
  | none => exact .absent
  | some placement =>
      have option : Conforms (.flagOr .attachToOptions) placement := conforms.presetOption rfl given
      obtain ⟨branch, inBranches, inner⟩ := option.branch
      simp only [List.mem_cons, List.not_mem_nil, or_false] at inBranches
      rcases inBranches with rfl | rfl
      · cases inner
        exact .switched
      · exact inner.isPlacement rfl

theorem Conforms.isPlacement_stretch : IsPlacement (stretchOptions animation) := by
  unfold stretchOptions
  cases given : presetOption? animation "stretchTo" with
  | none => exact .absent
  | some placement =>
      have option : Conforms (.model .stretchToOptions) placement := conforms.presetOption rfl given
      exact option.isPlacement rfl

end

/-! ### One target -/

theorem Target.HasPlainKind.isStretched {target : Target} (plain : target.HasPlainKind) :
    ∃ line, target.isStretched = .ok line ∧
      (line = true ↔ target.kind? = some (.text "ray") ∨ target.kind? = some (.text "cone")) := by
  unfold Target.isStretched
  cases given : target.kind? with
  | none => exact ⟨false, rfl, by simp⟩
  | some kind =>
      obtain ⟨noArray, noObject⟩ := plain kind given
      cases kind with
      | atom a =>
          cases a with
          | text content => exact ⟨_, rfl, by simp [stretchedKinds]⟩
          | _ => exact ⟨false, rfl, by simp⟩
      | list items => exact absurd rfl noArray
      | tuple items => exact absurd rfl noArray
      | mapping entries => exact absurd rfl noObject
      | record model fields => exact absurd rfl noObject

/-- Whether options are others with the effect attached as well. -/
def AttachesAlso (options others : Options) : Prop :=
  lookupText "attachTo" options = some (.boolean true) ∧
    ∀ key, key ≠ "attachTo" → lookupText key options = lookupText key others

theorem attachesAlso_attached (options : Options) : AttachesAlso (attached options) options := by
  unfold attached
  split
  next given =>
      have looked (name : String) := lookupText_map (fun key (value : Value) =>
        if key = .text "attachTo" then Value.boolean true else value) name options
      rw [List.map_congr_left (g := fun option =>
        (option.1, if option.1 = .text "attachTo" then .boolean true else option.2))]
      · refine ⟨?_, fun key other => ?_⟩
        · obtain ⟨value, found⟩ := Option.isSome_iff_exists.mp given
          simp [looked, found]
        · simp [looked, other]
      · rintro ⟨key, value⟩ _
        by_cases same : key = .text "attachTo" <;> simp [same]
  next absent =>
      rw [Option.not_isSome_iff_eq_none] at absent
      refine ⟨?_, fun key other => ?_⟩
      · simp [lookupText_append, absent, lookupText]
      · simp [lookupText_append, lookupText, Ne.symm other]

/-- Calls of which each is made on the handle that the one before it has given back. -/
def chained {η : Type} (sequencer : Sequencer η) : η → List Call → List (η × Call)
  | _, [] => []
  | handle, call :: rest => (handle, call) :: chained sequencer (sequencer handle call) rest

/-- The block of one target: its calls on the numbers that are left, and the numbers after it. -/
inductive IsBlock {η : Type} (sequencer : Sequencer η) (sequence : η) (animation : Value)
    (assets : List String) (target : Target) (numbers : List Double) :
    List (η × Call) → List Double → Prop
  | attached {options left} : ¬ IsStretchedAlong animation target →
      resolvePlacement .ofList (attachOptions animation) numbers = .ok (options, left) →
      left = numbers.drop (placementDraws (attachOptions animation)) →
      IsBlock sequencer sequence animation assets target numbers
        (chained sequencer sequence
          [.effect, .file (expandFiles assets), .attachTo target options]) left
  | stretched {options left more extended rest} : IsStretchedAlong animation target →
      resolvePlacement .ofList (attachOptions animation) numbers = .ok (options, left) →
      left = numbers.drop (placementDraws (attachOptions animation)) →
      resolvePlacement .ofList (stretchOptions animation) left = .ok (more, rest) →
      rest = left.drop (placementDraws (stretchOptions animation)) → AttachesAlso extended more →
      IsBlock sequencer sequence animation assets target numbers
        (chained sequencer sequence
          [.effect, .file (expandFiles assets), .attachTo target options,
            .stretchTo target extended]) rest

section
variable {η : Type} {sequencer : Sequencer η} {sequence : η} {animation : Value}
  {assets : List String}

/-- The effect is stretched along a target where it has to be, and nowhere else. -/
theorem Conforms.stretchTrace_eq (conforms : Conforms (.model .referenceObject) animation)
    {target : Target} (plain : target.HasPlainKind) {effect : η} {left : List Double}
    (enough : placementDraws (stretchOptions animation) ≤ left.length) :
    let draws := placementDraws (stretchOptions animation)
    let trace := stretchTrace sequencer .ofList (presetOption? animation "stretchTo") target effect left
    ¬ IsStretchedAlong animation target ∧ draws = 0 ∧ trace = ⟨[], .ok left⟩ ∨
      IsStretchedAlong animation target ∧ ∃ more extended,
        resolvePlacement .ofList (stretchOptions animation) left = .ok (more, left.drop draws) ∧
          AttachesAlso extended more ∧
          trace = ⟨[(effect, .stretchTo target extended)], .ok (left.drop draws)⟩ := by
  intro draws trace
  obtain ⟨more, resolved⟩ := conforms.isPlacement_stretch.resolves enough
  have also := attachesAlso_attached more
  cases given : presetOption? animation "stretchTo" with
  | some placement =>
      have options : stretchOptions animation = placement := by rw [stretchOptions, given]; rfl
      refine .inr ⟨.inl (by rw [given]; rfl), more, attached more, resolved, also, ?_⟩
      simp only [trace, stretchTrace, given, Trace.ofPlacement, ← options, resolved, draws,
        Trace.andThen, List.append_nil]
  | none =>
      have options : stretchOptions animation = .null := by rw [stretchOptions, given]; rfl
      obtain ⟨line, known, iff⟩ := plain.isStretched
      cases line with
      | true =>
          refine .inr ⟨.inr (iff.mp rfl), more, attached more, resolved, also, ?_⟩
          simp only [trace, stretchTrace, given, known, Trace.ofPlacement, ← options, resolved, draws,
            Trace.andThen, List.append_nil]
      | false =>
          refine .inl ⟨?_, ?_, ?_⟩
          · rintro (configured | isLine)
            · rw [given] at configured
              exact Bool.false_ne_true configured
            · exact Bool.false_ne_true (iff.mpr isLine)
          · simp only [draws, options]
            rfl
          · simp only [trace, stretchTrace, given, known]

theorem Conforms.targetTrace_eq (conforms : Conforms (.model .referenceObject) animation)
    {target : Target} (plain : target.HasPlainKind) {numbers : List Double}
    (enough : targetDraws animation ≤ numbers.length) :
    ∃ calls, targetTrace sequencer .ofList (expandFiles assets) (.ofRecord animation) sequence target
          numbers = ⟨calls, .ok (numbers.drop (targetDraws animation))⟩ ∧
      IsBlock sequencer sequence animation assets target numbers calls
        (numbers.drop (targetDraws animation)) := by
  unfold targetDraws at enough ⊢
  rw [← List.drop_drop]
  obtain ⟨options, attach⟩ := conforms.isPlacement_attach.resolves (Nat.le_of_add_right_le enough)
  generalize taken : numbers.drop (placementDraws (attachOptions animation)) = left at attach
  have remain : placementDraws (stretchOptions animation) ≤ left.length := by
    rw [← taken, List.length_drop]
    omega
  generalize made : sequencer (sequencer (sequencer sequence .effect) (.file (expandFiles assets)))
    (.attachTo target options) = effect
  have begun : targetTrace sequencer .ofList (expandFiles assets) (.ofRecord animation) sequence target
      numbers = Trace.andThen
        ⟨chained sequencer sequence [.effect, .file (expandFiles assets), .attachTo target options],
          .ok left⟩
        (stretchTrace sequencer .ofList (presetOption? animation "stretchTo") target effect) := by
    simp only [targetTrace, ofRecord_attachTo, ofRecord_stretchTo, Trace.ofPlacement, attach,
      Trace.andThen, chained, made]
    rfl
  rw [begun, Trace.andThen_ok rfl]
  rcases conforms.stretchTrace_eq plain remain with
    ⟨unstretched, none, same⟩ | ⟨stretched, more, extended, resolved, also, same⟩
  · rw [same, none, List.append_nil, List.drop_zero]
    exact ⟨_, rfl, .attached unstretched attach taken.symm⟩
  · rw [same, ← made]
    exact ⟨_, rfl, .stretched stretched attach taken.symm resolved rfl also⟩

/-! ### All targets -/

/-- A run: one block for each target, on the numbers that the blocks before it have left. -/
inductive Plays {η : Type} (sequencer : Sequencer η) (sequence : η) (animation : Value)
    (assets : List String) :
    List Target → List Double → List (η × Call) → List Double → Prop
  | nil {numbers} : Plays sequencer sequence animation assets [] numbers [] numbers
  | cons {target rest numbers middle left block calls} :
      IsBlock sequencer sequence animation assets target numbers block middle →
      Plays sequencer sequence animation assets rest middle calls left →
      Plays sequencer sequence animation assets (target :: rest) numbers (block ++ calls) left

theorem Conforms.targetsTrace_eq (conforms : Conforms (.model .referenceObject) animation)
    {targets : List Target} (plain : ∀ target ∈ targets, target.HasPlainKind) {numbers : List Double}
    (enough : targets.length * targetDraws animation ≤ numbers.length) :
    ∃ calls, targetsTrace sequencer .ofList (expandFiles assets) (.ofRecord animation) sequence targets
          numbers = ⟨calls, .ok (numbers.drop (targets.length * targetDraws animation))⟩ ∧
      Plays sequencer sequence animation assets targets numbers calls
        (numbers.drop (targets.length * targetDraws animation)) := by
  induction targets generalizing numbers with
  | nil =>
      rw [List.length_nil, Nat.zero_mul, List.drop_zero]
      exact ⟨[], rfl, .nil⟩
  | cons target rest inductionHypothesis =>
      obtain ⟨plainHere, plainLater⟩ := List.forall_mem_cons.mp plain
      rw [List.length_cons, Nat.succ_mul, Nat.add_comm] at enough ⊢
      rw [← List.drop_drop]
      obtain ⟨block, here, isBlock⟩ := conforms.targetTrace_eq plainHere
        (Nat.le_of_add_right_le enough)
      have remain : rest.length * targetDraws animation ≤
          (numbers.drop (targetDraws animation)).length := by
        rw [List.length_drop]
        omega
      obtain ⟨calls, later, plays⟩ := inductionHypothesis plainLater remain
      refine ⟨block ++ calls, ?_, .cons isBlock plays⟩
      rw [targetsTrace, here, Trace.andThen_ok rfl, later]

end

/--
With enough numbers at hand, the preset gives back its sequence for every validated animation, and its calls
are the blocks of the targets, each on the numbers that are left.  So targets that follow others go on where
those have ended.  Without files it fails before any call.
-/
theorem templateTrace_blocks {η : Type} (sequencer : Sequencer η) (sequence : η)
    {value animation : Value} (sound : value.IsSound)
    (validated : value.check (.model .referenceObject) = .ok animation) {targets : List Target}
    (plain : ∀ target ∈ targets, target.HasPlainKind) {numbers : List Double}
    (enough : targets.length * targetDraws animation ≤ numbers.length) :
    let known := TemplateAnimation.ofRecord animation
    let left := numbers.drop (targets.length * targetDraws animation)
    (∃ file assets calls, animation.get? "file" = some file ∧ HoldsAssets file assets ∧
        templateTrace sequencer .ofList known targets sequence numbers =
          ⟨calls, .ok (sequence, left)⟩ ∧
        Plays sequencer sequence animation assets targets numbers calls left) ∧
      (∀ before after handle state,
        templateTrace sequencer .ofList known (before ++ after) handle state =
          (templateTrace sequencer .ofList known before handle state).andThen
            fun (handle, state) => templateTrace sequencer .ofList known after handle state) ∧
      ∀ others handle state,
        templateTrace sequencer .ofList { known with files := none } others handle state =
          ⟨[], .error .fileMissing⟩ := by
  intro known left
  have conforms := sound.conforms validated
  refine ⟨?_, templateTrace_append sequencer .ofList known, fun _ _ _ => rfl⟩
  obtain ⟨file, assets, given, holds⟩ := conforms.file
  obtain ⟨calls, same, plays⟩ := conforms.targetsTrace_eq plain enough
  have files : known.files = some assets := by
    simp only [known, TemplateAnimation.ofRecord, given, Option.map_some, holds.textList_eq]
  refine ⟨file, assets, calls, given, holds, ?_, plays⟩
  rw [templateTrace, files]
  simp only [known, left, same, Trace.andThen, List.append_nil]

/-- A cone of fire or ice that is put somewhere beside its template. -/
def besideTemplate : Value :=
  .object [("trigger", .text "place-template"), ("preset", .text "template"),
    ("file", .text "jb2a.\x7bfire,ice\x7d.cone"),
    ("options", .object [("preset", .object [("attachTo", .object [
      ("offset", .object [("x", .list [.integer 1, .integer 3]), ("y", .integer 2)])])])])]

/-- A circle has the effect attached, and a ray has it stretched along; each takes one number, and it is the
sequence that is given back. -/
theorem templateTrace_besideTemplate :
    let animation := besideTemplate.checked (.model .referenceObject)
    let circle := Target.data (.object [("t", .text "circle")])
    let ray := Target.object (.object [("t", .text "ray")])
    let trace := templateTrace (fun handle _ => handle + 1) .ofList (.ofRecord animation) [circle, ray] 0
      [.zero, .zero, .infinite true]
    targetDraws animation = 1 ∧ trace.calls.map Prod.fst = [0, 1, 2, 0, 1, 2, 3] ∧
      trace.outcome = .ok (0, [.infinite true]) := by
  intro animation circle ray trace
  have json : besideTemplate.IsJson := by decide
  have passes : besideTemplate.Passes (.model .referenceObject) := by decide +kernel
  have draws : targetDraws animation = 1 := by decide +kernel
  have plain : ∀ target ∈ [circle, ray], target.HasPlainKind := by
    simp [circle, ray, Target.HasPlainKind, Target.kind?, Value.object, Value.get?, lookupText,
      Value.kind?, Value.atomKind?]
  have enough : [circle, ray].length * targetDraws animation ≤
      [Double.zero, .zero, .infinite true].length := by
    rw [draws]
    decide
  obtain ⟨⟨_, _, calls, _, _, same, _⟩, _⟩ :=
    templateTrace_blocks (fun handle _ => handle + 1) 0 json.isSound passes.check_eq plain enough
  have outcome : trace.outcome = _ := congrArg Trace.outcome same
  rw [draws] at outcome
  exact ⟨draws, by decide +kernel, outcome⟩

end AnimationGrammar
