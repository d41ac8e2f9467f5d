import AnimationGrammar.Proofs.Playback.Drawing
import AnimationGrammar.Proofs.Validation.RoundTrip

/-!
What the options of a placement become.

All options but the offset are handed on as they are.  In the offset every range is replaced by one
number from between its bounds, and the order in which the bounds are written does not matter.
-/

namespace AnimationGrammar

open Value

/-! ### Validated placements as plain data -/

def placementModels : List ModelName :=
  [.attachToOptions, .atLocationOptions, .rotateTowardsOptions, .stretchToOptions]

theorem formOf?_flip {flip : String} (isFlip : flip ∈ offsetFlips) :
    ModelName.offset.definition.formOf? (.text flip) = some .flag := by
  simp only [offsetFlips, List.mem_cons, List.not_mem_nil, or_false] at isFlip
  rcases isFlip with rfl | rfl <;> rfl

theorem formOf?_offset {model : ModelName} (isPlacement : model ∈ placementModels) :
    model.definition.formOf? (.text "offset") = some (.model .offset) := by
  simp only [placementModels, List.mem_cons, List.not_mem_nil, or_false] at isPlacement
  rcases isPlacement with rfl | rfl | rfl | rfl <;> rfl

theorem placementField_isAtomic : ∀ model ∈ placementModels, ∀ field ∈ model.definition.fields,
    field.name ≠ "offset" → field.form.isAtomic = true := by
  decide

structure Value.IsPlain (value : Value) : Prop where
  kept : value.dump = value
  filled : value ≠ .null

theorem lookupText_textKeys {α β : Type} (f : String → α → β) (name : String)
    (fields : List (String × α)) :
    lookupText name (fields.map fun field => (.text field.1, f field.1 field.2)) =
      (fields.lookup name).map (f name) := by
  induction fields with
  | nil => rfl
  | cons field rest inductionHypothesis =>
      rcases field with ⟨key, value⟩
      by_cases same : name = key
      · simp [lookupText, same]
      · simp [lookupText, List.lookup_cons, inductionHypothesis, beq_false_of_ne same, Ne.symm same]

theorem isJsonNode_textKeys {fields : List (String × Value)} (f : String × Value → Value)
    (namesDiffer : (fields.map Prod.fst).Nodup) :
    (Value.mapping (fields.map fun field => (.text field.1, f field))).IsJsonNode := by
  have injective : Function.Injective Atom.text := fun _ _ same => Atom.text.inj same
  refine ⟨List.forall_mem_map.mpr fun field _ => ⟨field.1, rfl⟩, ?_⟩
  simpa [List.map_map, Function.comp_def] using namesDiffer.map injective

/-- The ranges of an offset have no bound that is not a number. -/
def HasNumericRanges (offset : Value) : Prop :=
  ∀ axis ∈ offsetAxes, ∀ bounds, offset.get? axis = some (.tuple bounds) →
    .double .notANumber ∉ bounds

theorem Conforms.isOrderedAxis {axis : Value} (conforms : Conforms .offsetDimension axis)
    (numeric : ∀ bounds, axis = .tuple bounds → .double .notANumber ∉ bounds) :
    IsOrderedAxis (some axis) := by
  rcases conforms.axis_cases with ⟨x, rfl⟩ | ⟨a, b, rfl, inner⟩
  · exact .fixed
  · have absent := numeric _ rfl
    cases inner with
    | tuple _ _ differ =>
        apply IsOrderedAxis.range ?_ ?_ (differ rfl)
        · rintro ⟨⟩
          exact absent List.mem_cons_self
        · rintro ⟨⟩
          exact absent (List.mem_cons_of_mem _ List.mem_cons_self)

namespace Conforms

variable {value inner : Value}

theorem declared {name : ModelName} (conforms : Conforms (.model name) value) {key : String}
    (given : value.get? key = some inner) :
    ∃ field ∈ name.definition.fields, field.name = key ∧ Conforms field.form inner := by
  cases conforms with
  | model holds each =>
      obtain ⟨field, inFields, rfl⟩ :=
        List.mem_map.mp (holds.declared _ (lookup_eq_some_mem given))
      exact ⟨field, inFields, rfl, each field inFields inner given⟩

theorem namesDiffer {name : ModelName} {fields : List (String × Value)}
    (conforms : Conforms (.model name) (.record name fields)) : (fields.map Prod.fst).Nodup := by
  cases conforms with
  | model holds _ => exact holds.namesDiffer

theorem isPlain {form : Form} (conforms : Conforms form value) (atomic : form.isAtomic = true) :
    value.IsPlain := by
  cases conforms with
  | text | number | literal | flag => exact ⟨rfl, by simp⟩
  | _ => simp [Form.isAtomic] at atomic

theorem ne_nil {name : ModelName} {fields : List (String × Value)}
    (conforms : Conforms (.model name) (.record name fields))
    (someKey : .someKey ∈ name.definition.rules) : fields ≠ [] := by
  rintro rfl
  cases conforms with
  | model holds _ => exact Option.some_ne_none _ (holds.met .someKey someKey)

theorem offset_isPlain {name : String} (conforms : Conforms (.model .offset) value)
    (given : value.get? name = some inner) : inner.IsPlain := by
  by_cases isAxis : name ∈ offsetAxes
  · cases (conforms.field (formOf?_axis isAxis) given).isAxis with
    | fixed => exact ⟨rfl, by simp⟩
    | range => exact ⟨rfl, by simp⟩
  · have flips : ∀ field ∈ ModelName.offset.definition.fields, field.name ∉ offsetAxes →
        field.form.isAtomic = true := by decide
    obtain ⟨field, inFields, rfl, inside⟩ := conforms.declared given
    exact inside.isPlain (flips field inFields isAxis)

section
variable {model : ModelName} (isPlacement : model ∈ placementModels)
  (conforms : Conforms (.model model) value)
include isPlacement conforms

theorem placement_offset (given : value.get? "offset" = some inner) :
    Conforms (.model .offset) inner :=
  conforms.field (formOf?_offset isPlacement) given

theorem placement_isPlain {name : String} (given : value.get? name = some inner)
    (other : name ≠ "offset") : inner.IsPlain := by
  obtain ⟨field, inFields, rfl, inside⟩ := conforms.declared given
  exact inside.isPlain (placementField_isAtomic model isPlacement field inFields other)

end

end Conforms

/-! ### Bounds the other way around -/

def Value.turned : Value → Value
  | .tuple [a, b] => .tuple [b, a]
  | other => other

def Value.mapFields (change : String → Value → Value) : Value → Value
  | .record model fields => .record model (fields.map fun field => (field.1, change field.1 field.2))
  | other => other

def turnedOffset (axes : List String) : Value → Value :=
  mapFields fun name value => if name ∈ axes then value.turned else value

/-- The options of a placement with the ranges of some axes of the offset turned around. -/
def turnedPlacement (axes : List String) : Value → Value :=
  mapFields fun name value => if name = "offset" then turnedOffset axes value else value

theorem turnedOffset_nil (offset : Value) : turnedOffset [] offset = offset := by
  unfold turnedOffset mapFields
  cases offset <;> simp

theorem turnedPlacement_nil (options : Value) : turnedPlacement [] options = options := by
  unfold turnedPlacement mapFields
  cases options <;> simp [turnedOffset_nil]

theorem Value.IsPlain.turned {value : Value} (plain : value.IsPlain) : value.turned.IsPlain := by
  unfold Value.turned
  split
  next a b =>
      have kept := plain.kept
      simp only [dump, dumpItems, Value.tuple.injEq, List.cons.injEq, and_true] at kept
      exact ⟨by rw [dump, dumpItems, dumpItems, dumpItems, kept.1, kept.2], by simp⟩
  · exact plain

section
variable {σ : Type} {source : RandomSource σ}

/-- A range is drawn from alike in whichever order its bounds are written. -/
theorem drawAxis_turned {given : Option Value} (isAxis : IsOrderedAxis given) :
    drawAxis source (given.map turned) = drawAxis source given := by
  cases isAxis with
  | absent => rfl
  | fixed => rfl
  | range first second differ =>
      rw [Option.map_some, turned, drawAxis, drawFrom_swap first second differ, drawAxis]

end

/-! ### Validated placements -/

namespace Conforms

/-- A validated offset is written with what it holds, and it holds something. -/
theorem offset_dump {offset : Value} (conforms : Conforms (.model .offset) offset)
    (axes : List String) : ∃ entries, (turnedOffset axes offset).dump = .mapping entries ∧
      entries ≠ [] ∧ ∀ name, lookupText name entries =
        (offset.get? name).map fun value => if name ∈ axes then value.turned else value := by
  obtain ⟨fields, rfl, holds⟩ := conforms.eq_record
  have plain : ∀ field ∈ fields, field.2.IsPlain := fun field membership =>
    conforms.offset_isPlain ((lookup_eq_some_iff_mem holds.namesDiffer).mpr membership)
  refine ⟨fields.map fun field =>
    (.text field.1, if field.1 ∈ axes then field.2.turned else field.2), ?_, ?_, ?_⟩
  · have changed : ∀ field ∈ fields,
        (if field.1 ∈ axes then field.2.turned else field.2).IsPlain := by
      intro field membership
      split
      · exact (plain field membership).turned
      · exact plain field membership
    rw [turnedOffset, mapFields, dump, dumpFields_eq, List.map_map]
    · refine congrArg Value.mapping (List.map_congr_left fun field membership => ?_)
      rw [Function.comp_apply, (changed field membership).kept]
    · exact List.forall_mem_map.mpr fun field membership => (changed field membership).filled
  · rw [ne_eq, List.map_eq_nil_iff]
    exact conforms.ne_nil (by decide)
  · intro name
    exact lookupText_textKeys (fun key value => if key ∈ axes then value.turned else value) name fields

theorem isTruthy_turned {offset : Value} (conforms : Conforms (.model .offset) offset)
    (axes : List String) : (turnedOffset axes offset).dump.isTruthy = true := by
  obtain ⟨entries, written, filled, -⟩ := conforms.offset_dump axes
  simp [written, isTruthy, filled]

theorem offset_written {offset : Value} (conforms : Conforms (.model .offset) offset) :
    ∃ entries, offset.dump = .mapping entries ∧
      ∀ name, lookupText name entries = offset.get? name := by
  obtain ⟨entries, written, -, looked⟩ := conforms.offset_dump []
  rw [turnedOffset_nil] at written
  exact ⟨entries, written, by simpa using looked⟩

theorem isTruthy_written {offset : Value} (conforms : Conforms (.model .offset) offset) :
    offset.dump.isTruthy = true :=
  turnedOffset_nil offset ▸ conforms.isTruthy_turned []

theorem offset_flip {offset inner : Value} (conforms : Conforms (.model .offset) offset)
    {name : String} (given : offset.get? name = some inner) (notAxis : name ∉ offsetAxes) :
    name ∈ offsetFlips ∧ inner = .boolean true := by
  have others : ∀ field ∈ ModelName.offset.definition.fields, field.name ∉ offsetAxes →
      field.name ∈ offsetFlips := by decide
  obtain ⟨field, inFields, rfl, -⟩ := conforms.declared given
  have isFlip := others field inFields notAxis
  cases conforms.field (formOf?_flip isFlip) given
  exact ⟨isFlip, rfl⟩

theorem isOrderedAxis_get? {offset : Value} (conforms : Conforms (.model .offset) offset)
    (numeric : HasNumericRanges offset) {axis : String} (isAxis : axis ∈ offsetAxes) :
    IsOrderedAxis (offset.get? axis) := by
  have ranges := numeric axis isAxis
  cases given : offset.get? axis with
  | none => exact .absent
  | some inner =>
      apply (conforms.field (formOf?_axis isAxis) given).isOrderedAxis
      rintro bounds rfl
      exact ranges bounds given

end Conforms

/-- The fields of a placement as entries, with what is made of the offset. -/
def placedEntries (change : Value → Value) (fields : List (String × Value)) : List (Atom × Value) :=
  fields.map fun field => (.text field.1, if field.1 = "offset" then change field.2 else field.2)

theorem lookupText_placedEntries (change : Value → Value) (fields : List (String × Value))
    (name : String) : lookupText name (placedEntries change fields) =
      (fields.lookup name).map fun value => if name = "offset" then change value else value :=
  lookupText_textKeys (fun key value => if key = "offset" then change value else value) name fields

/-- The offset is dropped before what it becomes is added. -/
theorem withOffset_placedEntries (change other : Value → Value) (fields : List (String × Value))
    (offset : Option Value) : withOffset (placedEntries change fields) offset =
      withOffset (placedEntries other fields) offset := by
  unfold withOffset placedEntries
  rw [List.filter_map, List.filter_map]
  refine congrArg (· ++ _) (List.map_congr_left fun field membership => ?_)
  have apart : field.1 ≠ "offset" := by simpa using (List.mem_filter.mp membership).2
  rw [if_neg apart, if_neg apart]

/-- A validated placement is written with its fields as they are, apart from the offset. -/
theorem Conforms.placementEntries_eq {model : ModelName} (isPlacement : model ∈ placementModels)
    {fields : List (String × Value)} (conforms : Conforms (.model model) (.record model fields))
    (axes : List String) : placementEntries (turnedPlacement axes (.record model fields)) =
      placedEntries (fun offset => (turnedOffset axes offset).dump) fields := by
  have given (field : String × Value) (membership : field ∈ fields) :
      (Value.record model fields).get? field.1 = some field.2 :=
    (lookup_eq_some_iff_mem conforms.namesDiffer).mpr membership
  rw [turnedPlacement, mapFields, placementEntries, dump, dumpFields_eq, List.map_map, placedEntries]
  · refine List.map_congr_left fun field membership => ?_
    by_cases isOffset : field.1 = "offset"
    · simp [isOffset]
    · simp [isOffset, (conforms.placement_isPlain isPlacement (given field membership) isOffset).kept]
  · refine List.forall_mem_map.mpr fun field membership => ?_
    by_cases isOffset : field.1 = "offset"
    · rw [if_pos isOffset]
      have inner := conforms.placement_offset isPlacement (isOffset ▸ given field membership)
      obtain ⟨members, same, _⟩ := inner.eq_record
      rw [same]
      exact Value.noConfusion
    · rw [if_neg isOffset]
      exact (conforms.placement_isPlain isPlacement (given field membership) isOffset).filled

theorem Conforms.placementEntries_record {model : ModelName} (isPlacement : model ∈ placementModels)
    {fields : List (String × Value)} (conforms : Conforms (.model model) (.record model fields)) :
    placementEntries (.record model fields) = placedEntries dump fields := by
  have written := conforms.placementEntries_eq isPlacement []
  simpa only [turnedPlacement_nil, turnedOffset_nil] using written

/-! ### What a placement becomes -/

/-- The members that an offset is resolved to: those it has, with what has become of its axes. -/
structure OffsetResolves {σ : Type} (source : RandomSource σ) (offset : Value) (state : σ)
    (members : List (Atom × Value)) (next : σ) : Prop where
  keyed : (Value.mapping members).IsJsonNode
  axes : ∃ middle, AxisResolves source (offset.get? "x") state (lookupText "x" members) middle ∧
    AxisResolves source (offset.get? "y") middle (lookupText "y" members) next
  others : ∀ name ∉ offsetAxes, lookupText name members = offset.get? name

/-- The mapping that a placement is resolved to: its options as they are, apart from the offset. -/
structure PlacementResolves {σ : Type} (source : RandomSource σ) (options : Value) (state : σ)
    (mapping : List (Atom × Value)) (next : σ) : Prop where
  keyed : (Value.mapping mapping).IsJsonNode
  others : ∀ name ≠ "offset", lookupText name mapping = options.get? name
  unplaced : options.get? "offset" = none → lookupText "offset" mapping = none ∧ next = state
  placed : ∀ offset, options.get? "offset" = some offset → ∃ members,
    lookupText "offset" mapping = some (.mapping members) ∧
      OffsetResolves source offset state members next

section
variable {σ : Type} {source : RandomSource σ}

theorem Conforms.offset_resolves {offset : Value} (conforms : Conforms (.model .offset) offset)
    (numeric : HasNumericRanges offset) (between : source.StaysBetween) (state : σ) :
    ∃ members next, resolveOffset source offset.dump state = .ok (.mapping members, next) ∧
      OffsetResolves source offset state members next := by
  obtain ⟨entries, written, looked⟩ := conforms.offset_written
  have axis (name : String) (isAxis : name ∈ offsetAxes) :=
    drawAxis_resolves between (conforms.isOrderedAxis_get? numeric isAxis)
  obtain ⟨x, middle, drawnX, first⟩ := axis "x" (by decide) state
  obtain ⟨y, next, drawnY, second⟩ := axis "y" (by decide) middle
  have found := lookupText_resolvedMembers (.mapping entries) x y
  refine ⟨resolvedMembers (.mapping entries) x y, next, ?_,
    isJsonNode_resolvedMembers _ x y, ⟨middle, ?_, ?_⟩, ?_⟩
  · rw [written, resolveOffset_eq, looked, looked, Drawing.bind_ok drawnX, Drawing.map_ok drawnY]
  · rw [found, if_pos rfl]
    exact first
  · rw [found, if_neg (by decide), if_pos rfl]
    exact second
  · intro name notAxis
    simp only [offsetAxes, List.mem_cons, List.not_mem_nil, or_false, not_or] at notAxis
    rw [found, if_neg notAxis.1, if_neg notAxis.2, setFlip, Value.get?, looked]
    cases given : offset.get? name with
    | none => simp
    | some inner =>
        obtain ⟨isFlip, rfl⟩ := conforms.offset_flip given (by simpa [offsetAxes] using notAxis)
        simp [isFlip, isTruthy]

/-- Turning ranges around changes neither what an offset is resolved to nor what is drawn. -/
theorem Conforms.resolveOffset_turned {offset : Value} (conforms : Conforms (.model .offset) offset)
    (numeric : HasNumericRanges offset) (axes : List String) :
    resolveOffset source (turnedOffset axes offset).dump = resolveOffset source offset.dump := by
  obtain ⟨entries, written, -, looked⟩ := conforms.offset_dump axes
  obtain ⟨others, writtenToo, lookedToo⟩ := conforms.offset_written
  rw [written, writtenToo]
  apply resolveOffset_congr
  · intro axis isAxis
    rw [looked, lookedToo]
    by_cases isTurned : axis ∈ axes
    · simp only [isTurned, if_true]
      exact drawAxis_turned (conforms.isOrderedAxis_get? numeric isAxis)
    · simp [isTurned]
  · intro flip isFlip
    rw [looked, lookedToo]
    cases given : offset.get? flip with
    | none => rfl
    | some inner =>
        have notAxis : flip ∉ offsetAxes := by
          simp only [offsetFlips, List.mem_cons, List.not_mem_nil, or_false] at isFlip
          rcases isFlip with rfl | rfl <;> decide
        obtain ⟨-, rfl⟩ := conforms.offset_flip given notAxis
        simp [turned]

section
variable {model : ModelName} (isPlacement : model ∈ placementModels) {fields : List (String × Value)}
  (conforms : Conforms (.model model) (.record model fields))
  (numeric : ∀ offset, fields.lookup "offset" = some offset → HasNumericRanges offset)
include isPlacement conforms numeric

theorem Conforms.placement_resolves (between : source.StaysBetween) (state : σ) :
    ∃ mapping next, resolvePlacement source (.record model fields) state = .ok (mapping, next) ∧
      PlacementResolves source (.record model fields) state mapping next := by
  have entries := conforms.placementEntries_record isPlacement
  have node : (Value.mapping (placedEntries dump fields)).IsJsonNode :=
    isJsonNode_textKeys _ conforms.namesDiffer
  have others (offset : Option Value) (name : String) (apart : name ≠ "offset") :
      lookupText name (withOffset (placedEntries dump fields) offset) = fields.lookup name := by
    rw [lookupText_withOffset, if_neg apart, lookupText_placedEntries]
    simp [apart]
  have looked := lookupText_placedEntries dump fields "offset"
  cases given : fields.lookup "offset" with
  | none =>
      rw [given, Option.map_none, ← entries] at looked
      rw [resolvePlacement_unplaced looked, entries]
      refine ⟨_, state, rfl, isJsonNode_withOffset node none, others none, ?_, ?_⟩
      · intro _
        rw [lookupText_withOffset, if_pos rfl]
        exact ⟨rfl, rfl⟩
      · intro offset placed
        rw [get?, given] at placed
        exact absurd placed (Option.some_ne_none offset).symm
  | some offset =>
      have inner := conforms.placement_offset isPlacement given
      have truthy := inner.isTruthy_written
      obtain ⟨members, next, resolved, resolves⟩ :=
        inner.offset_resolves (numeric offset given) between state
      rw [given, Option.map_some, if_pos rfl, ← entries] at looked
      rw [resolvePlacement_placed looked truthy, entries, Drawing.map_ok resolved]
      refine ⟨_, next, rfl, isJsonNode_withOffset node _, others _, ?_, ?_⟩
      · intro unplaced
        rw [get?, given] at unplaced
        exact absurd unplaced (Option.some_ne_none offset)
      · intro other placed
        rw [get?, given, Option.some.injEq] at placed
        subst placed
        rw [lookupText_withOffset, if_pos rfl]
        exact ⟨members, rfl, resolves⟩

theorem Conforms.resolvePlacement_turned (axes : List String) :
    resolvePlacement source (turnedPlacement axes (.record model fields)) =
      resolvePlacement source (.record model fields) := by
  have turned := conforms.placementEntries_eq isPlacement axes
  have entries := conforms.placementEntries_record isPlacement
  have looked (change : Value → Value) := lookupText_placedEntries change fields "offset"
  cases given : fields.lookup "offset" with
  | none =>
      simp only [given, Option.map_none] at looked
      rw [resolvePlacement_unplaced (turned ▸ looked _), resolvePlacement_unplaced (entries ▸ looked _),
        turned, entries, withOffset_placedEntries _ dump]
  | some offset =>
      have inner := conforms.placement_offset isPlacement given
      have truthy := inner.isTruthy_written
      simp only [given, Option.map_some, if_true] at looked
      rw [resolvePlacement_placed (turned ▸ looked _) (inner.isTruthy_turned axes),
        resolvePlacement_placed (entries ▸ looked _) truthy, turned, entries,
        inner.resolveOffset_turned (numeric offset given)]
      simp only [withOffset_placedEntries _ dump]

end

end

/-! ### Axes of a document -/

/-- What validation makes of an axis: its numbers are rounded to doubles. -/
inductive AxisReads : Value → Value → Prop
  | fixed {n x} : n.toDouble? = some x → AxisReads (.number n) (.double x)
  | range {a b x y} : a.toDouble? = some x → b.toDouble? = some y →
      AxisReads (.list [.number a, .number b]) (.tuple [.double x, .double y])

theorem Admits.checked_number {rule : NumberRule} {value : Value}
    (admits : Admits .validation (.number rule) value) (fractional : rule.whole = false) :
    ∃ n x, value = .number n ∧ n.toDouble? = some x ∧ value.checked (.number rule) = .double x := by
  obtain ⟨⟨n, rfl, m, accepted⟩, -⟩ := (admits_whole_iff rfl).mp admits
  obtain ⟨x, rounded, rfl⟩ := NumberRule.check_fractional fractional accepted
  exact ⟨n, x, rfl, rounded, Value.checked_number accepted⟩

theorem Admits.axisReads {axis : Value} (admits : Admits .validation .offsetDimension axis)
    (json : axis.IsJson) : AxisReads axis (axis.checked .offsetDimension) := by
  rw [Form.offsetDimension] at admits ⊢
  obtain ⟨branch, membership, inner, same⟩ := admits.checked_byKind
  rw [same]
  simp only [List.mem_cons, List.not_mem_nil, or_false] at membership
  rcases membership with rfl | rfl
  · obtain ⟨n, x, rfl, rounded, same⟩ := Admits.checked_number inner rfl
    rw [Form.nonZeroNumber, same]
    exact .fixed rounded
  · obtain ⟨⟨items, rfl, length, -⟩, parts⟩ := (admits_whole_iff rfl).mp inner
    obtain ⟨first, second, rfl⟩ := List.length_eq_two.mp length
    obtain ⟨a, x, rfl, roundedA, sameA⟩ :=
      Admits.checked_number (parts (.anyNumber, first) (by simp [Form.offsetRange, Form.parts])) rfl
    obtain ⟨b, y, rfl, roundedB, sameB⟩ :=
      Admits.checked_number (parts (.anyNumber, second) (by simp [Form.offsetRange, Form.parts])) rfl
    rw [Form.offsetRange, Value.checked_tuple (inner.passes json rfl) length]
    simp only [List.zip_cons_cons, List.zip_nil_right, List.map_cons, List.map_nil, Form.anyNumber,
      sameA, sameB]
    exact .range roundedA roundedB

/-- In a document every bound of a range is a number. -/
theorem Value.IsJson.hasNumericRanges {offset : Value} (json : offset.IsJson)
    (admits : Admits .validation (.model .offset) offset) :
    HasNumericRanges (offset.checked (.model .offset)) := by
  intro axis isAxis bounds given
  have form := formOf?_axis isAxis
  rw [admits.get?_checked json form, Option.map_eq_some_iff] at given
  obtain ⟨raw, inOffset, same⟩ := given
  have inner := json.get? inOffset
  have reads := (admits.of_get? form inOffset).axisReads inner
  rw [same] at reads
  generalize raw = axis at reads inner
  cases reads with
  | @range a b x y roundedA roundedB =>
      have orderedA := Numeral.toDouble?_isOrdered (inner.item List.mem_cons_self).node roundedA
      have orderedB := Numeral.toDouble?_isOrdered
        (inner.item (List.mem_cons_of_mem _ List.mem_cons_self)).node roundedB
      simp only [List.mem_cons, List.not_mem_nil, or_false, not_or]
      constructor
      · rintro ⟨⟩
        exact orderedA rfl
      · rintro ⟨⟩
        exact orderedB rfl

/-! ### The options as a whole -/

/--
The options of a validated placement are resolved to a mapping of the keys that are set.  All values but
the offset are kept, and so are its flips; a number for an axis stays, and a range turns into one number
between its bounds, drawn for `x` before it is drawn for `y`.  Nothing else is drawn, and it does not
matter in which order the bounds of a range are written.
-/
theorem resolvePlacement_resolves {value options : Value} (sound : value.IsSound)
    {model : ModelName} (isPlacement : model ∈ placementModels)
    (validated : value.check (.model model) = .ok options)
    (numeric : ∀ offset, options.get? "offset" = some offset → HasNumericRanges offset) :
    (∀ {σ : Type} (source : RandomSource σ), source.StaysBetween → ∀ state, ∃ mapping next,
        resolvePlacement source options state = .ok (mapping, next) ∧
          PlacementResolves source options state mapping next) ∧
      ∀ {σ : Type} (source : RandomSource σ) (axes : List String),
        resolvePlacement source (turnedPlacement axes options) = resolvePlacement source options := by
  have conforms := sound.conforms validated
  obtain ⟨fields, rfl, -⟩ := conforms.eq_record
  constructor
  · intro σ source between state
    exact conforms.placement_resolves isPlacement numeric between state
  · intro σ source axes
    exact conforms.resolvePlacement_turned isPlacement numeric axes

/-- Options that put an effect beside a token, somewhere to its left and turned over. -/
def besideToken : Value :=
  .object [("offset", .object [("x", .list [.integer 3, .integer (-1)]), ("y", .integer 2),
      ("flipX", .boolean true)]),
    ("randomOffset", .integer 0), ("gridUnits", .boolean true)]

theorem resolvePlacement_besideToken :
    let options := besideToken.checked (.model .attachToOptions)
    (∃ mapping next, resolvePlacement .lower options 0 = .ok (mapping, next) ∧
        PlacementResolves .lower options 0 mapping next) ∧
      resolvePlacement .ofList (turnedPlacement ["x"] options) = resolvePlacement .ofList options := by
  intro options
  have json : besideToken.IsJson := by decide
  have isPlacement : ModelName.attachToOptions ∈ placementModels := by decide
  have passes : besideToken.Passes (.model .attachToOptions) := by decide +kernel
  have admits := (json.passes_iff_of_uniform rfl).mp passes
  have numeric : ∀ offset, options.get? "offset" = some offset → HasNumericRanges offset := by
    intro offset given
    have declared := formOf?_offset isPlacement
    rw [admits.get?_checked json declared, Option.map_eq_some_iff] at given
    obtain ⟨raw, inOptions, rfl⟩ := given
    exact (json.get? inOptions).hasNumericRanges (admits.of_get? declared inOptions)
  obtain ⟨resolves, turned⟩ :=
    resolvePlacement_resolves json.isSound isPlacement passes.check_eq numeric
  exact ⟨resolves .lower RandomSource.lower_staysBetween 0, turned .ofList ["x"]⟩

end AnimationGrammar
