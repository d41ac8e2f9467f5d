import AnimationGrammar.Proofs.Playback.Offsets

/-!
Options that are validated, and options that are not.

The options of a placement are resolved as a record or as the plain object that the record was made of.
Validation rounds numbers, turns lists of bounds into tuples and puts the fields in the order of their
model, and none of this is seen by a random source that looks at the values of its bounds only.
-/

namespace AnimationGrammar

open Value

/-! ### Outcomes that are alike -/

/-- A random source for which equal bounds are the same bounds. -/
def RandomSource.IsNumeric {σ : Type} (source : RandomSource σ) : Prop :=
  ∀ a b c d : Numeral, a.isEqual c = true → b.isEqual d = true →
    source.uniform a b = source.uniform c d

/-- Values that are the same, but for the spelling of numbers and the order of keys. -/
inductive SameNumbers : Value → Value → Prop
  | same {value} : SameNumbers value value
  | number {a b} : a.isEqual b = true → SameNumbers (.number a) (.number b)
  | mapping {entries others : List (Atom × Value)} : (Value.mapping entries).IsJsonNode →
      (Value.mapping others).IsJsonNode →
      (∀ name, Option.Rel SameNumbers (lookupText name entries) (lookupText name others)) →
      SameNumbers (.mapping entries) (.mapping others)

theorem SameNumbers.rel_refl (found : Option Value) : Option.Rel SameNumbers found found := by
  cases found with
  | none => exact .none
  | some value => exact .some .same

/-- Outcomes that are alike: results that are related after the same draws, or the failure of a draw. -/
inductive OutcomesAlike {σ α β : Type} (source : RandomSource σ) (related : α → β → Prop) :
    Except PlaybackFailure (α × σ) → Except PlaybackFailure (β × σ) → Prop
  | resolved {a b next} : related a b → OutcomesAlike source related (.ok (a, next)) (.ok (b, next))
  | failed {low high state failure} : source.uniform low high state = .error failure →
      OutcomesAlike source related (.error failure) (.error failure)

theorem OutcomesAlike.exists_ok {σ α β : Type} {source : RandomSource σ} {related : α → β → Prop}
    {first : Except PlaybackFailure (α × σ)} {second : Except PlaybackFailure (β × σ)}
    (alike : OutcomesAlike source related first second)
    (answers : ∀ low high state, ∃ answer, source.uniform low high state = .ok answer) :
    ∃ a b next, first = .ok (a, next) ∧ second = .ok (b, next) ∧ related a b := by
  cases alike with
  | resolved pair => exact ⟨_, _, _, rfl, rfl, pair⟩
  | failed drawn =>
      obtain ⟨answer, answered⟩ := answers _ _ _
      rw [answered] at drawn
      exact nomatch drawn

def DrawsAlike {σ α β : Type} (source : RandomSource σ) (related : α → β → Prop)
    (first : Drawing σ α) (second : Drawing σ β) : Prop :=
  ∀ state, OutcomesAlike source related (first state) (second state)

namespace DrawsAlike

variable {σ α β γ δ : Type} {source : RandomSource σ} {related : α → β → Prop}
  {relatedLater : γ → δ → Prop} {first : Drawing σ α} {second : Drawing σ β}

theorem pure {a : α} {b : β} (pair : related a b) : DrawsAlike source related (.pure a) (.pure b) :=
  fun _ => .resolved pair

theorem uniform (low high : Numeral) :
    DrawsAlike source Eq (source.uniform low high) (source.uniform low high) := by
  intro state
  cases drawn : source.uniform low high state with
  | error failure => exact .failed drawn
  | ok answer => exact .resolved rfl

theorem bind {f : α → Drawing σ γ} {g : β → Drawing σ δ} (alike : DrawsAlike source related first second)
    (later : ∀ a b, related a b → DrawsAlike source relatedLater (f a) (g b)) :
    DrawsAlike source relatedLater (first.bind f) (second.bind g) := by
  intro state
  have here := alike state
  unfold Drawing.bind
  generalize first state = left at here ⊢
  generalize second state = right at here ⊢
  cases here with
  | resolved pair => exact later _ _ pair _
  | failed drawn => exact .failed drawn

theorem map {f : α → γ} {g : β → δ} (alike : DrawsAlike source related first second)
    (kept : ∀ a b, related a b → relatedLater (f a) (g b)) :
    DrawsAlike source relatedLater (first.map f) (second.map g) :=
  alike.bind fun a b pair => .pure (kept a b pair)

end DrawsAlike

/-! ### Numbers that are equal -/

namespace Numeral

theorem isEqual_rounded {n : Numeral} {x : Double} (exact : (Value.number n).HasExactIntegers)
    (ordered : n.IsOrdered) (rounded : n.toDouble? = some x) : (double x).isEqual n = true := by
  obtain ⟨y, same, place⟩ := toDouble?_place exact
  obtain rfl := Option.some.inj (same.symm.trans rounded)
  exact (isEqual_iff (toDouble?_isOrdered ordered rounded) ordered).mpr place

end Numeral

/-! ### Axes -/

section
variable {σ : Type} {source : RandomSource σ}

theorem drawFrom_alike (numeric : source.IsNumeric) {a b c d : Numeral}
    (first : a.isEqual c = true) (second : b.isEqual d = true) :
    DrawsAlike source Eq (drawFrom source [.number a, .number b])
      (drawFrom source [.number c, .number d]) := by
  rw [drawFrom_pair, drawFrom_pair, Numeral.isLess_congr second first]
  by_cases swapped : d.isLess c = true
  · rw [if_pos swapped, if_pos swapped, numeric b a d c second first]
    exact .uniform d c
  · rw [if_neg swapped, if_neg swapped, numeric a b c d first second]
    exact .uniform c d

theorem AxisReads.drawAxis_alike (numeric : source.IsNumeric) {axis checked : Value}
    (reads : AxisReads axis checked) (json : axis.IsJson) (exact : axis.HasExactIntegers) :
    DrawsAlike source (Option.Rel SameNumbers) (drawAxis source (some checked))
      (drawAxis source (some axis)) := by
  cases reads with
  | fixed rounded =>
      apply DrawsAlike.pure
      exact .some (.number (Numeral.isEqual_rounded exact json.node rounded))
  | @range a b x y roundedA roundedB =>
      have inA : Value.number a ∈ [Value.number a, Value.number b] := by simp
      have inB : Value.number b ∈ [Value.number a, Value.number b] := by simp
      have first := Numeral.isEqual_rounded (exact.part (.item inA .self)) (json.item inA).node roundedA
      have second := Numeral.isEqual_rounded (exact.part (.item inB .self)) (json.item inB).node roundedB
      apply (drawFrom_alike numeric first second).map
      rintro x _ rfl
      exact .some .same

end

/-! ### Fields -/

section
variable {value : Value} (json : value.IsJson) (exact : value.HasExactIntegers)
include json exact

/-- A value without parts is kept, apart from the spelling of a number. -/
theorem Admits.sameNumbers {form : Form} (admits : Admits .validation form value)
    (atomic : form.isAtomic = true) (flag : form = .flag → value = .boolean true) :
    SameNumbers (value.checked form) value := by
  cases form with
  | text rule =>
      obtain ⟨⟨content, rfl, accepted⟩, -⟩ := (admits_whole_iff rfl).mp admits
      rw [Value.checked_text accepted]
      exact .same
  | number rule =>
      obtain ⟨⟨n, rfl, m, accepted⟩, -⟩ := (admits_whole_iff rfl).mp admits
      have ordered : n.IsOrdered := json.node
      obtain ⟨x, rounded, place, -⟩ := NumberRule.check_place accepted
      have kept := Numeral.place_of_isEqual (Numeral.isEqual_rounded exact ordered rounded)
      rw [Value.checked_number accepted]
      apply SameNumbers.number
      exact (Numeral.isEqual_iff (NumberRule.check_isOrdered ordered accepted) ordered).mpr
        (place.trans kept)
  | literal choices =>
      obtain ⟨⟨content, chosen, rfl⟩, -⟩ := (admits_whole_iff rfl).mp admits
      rw [Value.checked_literal chosen]
      exact .same
  | flag =>
      obtain rfl := flag rfl
      rw [Value.checked_flag (.inl rfl)]
      exact .same
  | _ => simp [Form.isAtomic] at atomic

end

theorem Visits.flag_eq_true {entries : List (Atom × Value)} {name : ModelName}
    (flags : ∀ place, Visits (.model name) (.mapping entries) .flag place → place = .boolean true)
    {key : String} (declared : name.definition.formOf? (.text key) = some .flag) {inner : Value}
    (given : lookupText key entries = some inner) : inner = .boolean true := by
  have isPart := Form.mem_parts_of_declared declared (lookupText_eq_some_mem given)
  exact flags inner (.part isPart (.here rfl))

/-! ### Members that are alike -/

theorem sameNumbers_resolvedMembers {offset plain : Value} {x y u v : Option Value}
    (first : Option.Rel SameNumbers x u) (second : Option.Rel SameNumbers y v)
    (flips : ∀ flip ∈ offsetFlips, setFlip offset flip = setFlip plain flip) :
    SameNumbers (.mapping (resolvedMembers offset x y)) (.mapping (resolvedMembers plain u v)) := by
  refine .mapping (isJsonNode_resolvedMembers offset x y) (isJsonNode_resolvedMembers plain u v) ?_
  intro name
  rw [lookupText_resolvedMembers, lookupText_resolvedMembers]
  by_cases isX : name = "x"
  · rwa [if_pos isX, if_pos isX]
  · by_cases isY : name = "y"
    · rwa [if_neg isX, if_neg isX, if_pos isY, if_pos isY]
    · rw [if_neg isX, if_neg isX, if_neg isY, if_neg isY]
      by_cases isFlip : name ∈ offsetFlips
      · rw [if_pos isFlip, if_pos isFlip, flips name isFlip]
        exact SameNumbers.rel_refl _
      · rw [if_neg isFlip, if_neg isFlip]
        exact .none

theorem sameNumbers_withOffset {fields : List (String × Value)} {entries : List (Atom × Value)}
    (namesDiffer : (fields.map Prod.fst).Nodup) (node : (Value.mapping entries).IsJsonNode)
    (same : ∀ name ≠ "offset", Option.Rel SameNumbers (fields.lookup name) (lookupText name entries))
    (x u : Option Value) (pair : Option.Rel SameNumbers x u) :
    SameNumbers (.mapping (withOffset (placedEntries dump fields) x))
      (.mapping (withOffset entries u)) := by
  apply SameNumbers.mapping
  · exact isJsonNode_withOffset (isJsonNode_textKeys _ namesDiffer) x
  · exact isJsonNode_withOffset node u
  · intro name
    rw [lookupText_withOffset, lookupText_withOffset, lookupText_placedEntries]
    by_cases isOffset : name = "offset"
    · rwa [if_pos isOffset, if_pos isOffset]
    · simp only [if_neg isOffset, Option.map_id']
      exact same name isOffset

/-! ### Offsets and placements -/

section
variable {σ : Type} {source : RandomSource σ} {entries : List (Atom × Value)}
  (json : (Value.mapping entries).IsJson) (exact : (Value.mapping entries).HasExactIntegers)
include json exact

theorem Admits.offset_drawsAlike (numeric : source.IsNumeric)
    (admits : Admits .validation (.model .offset) (.mapping entries))
    (flags : ∀ place, Visits (.model .offset) (.mapping entries) .flag place → place = .boolean true) :
    DrawsAlike source SameNumbers
      (resolveOffset source ((Value.mapping entries).checked (.model .offset)).dump)
      (resolveOffset source (.mapping entries)) := by
  have conforms := json.isSound.conforms (admits.passes json rfl).check_eq
  obtain ⟨dumped, written, looked⟩ := conforms.offset_written
  have axis (name : String) (isAxis : name ∈ offsetAxes) :
      DrawsAlike source (Option.Rel SameNumbers) (drawAxis source (lookupText name dumped))
        (drawAxis source (lookupText name entries)) := by
    rw [looked, admits.get?_checked json (formOf?_axis isAxis), get?]
    cases given : lookupText name entries with
    | none => exact .pure .none
    | some inner =>
        have inside := lookupText_eq_some_mem given
        have reads := (admits.of_get? (formOf?_axis isAxis) given).axisReads (json.entry inside)
        exact reads.drawAxis_alike numeric (json.entry inside) (exact.part (.entry inside .self))
  have flips : ∀ flip ∈ offsetFlips, setFlip (.mapping dumped) flip = setFlip (.mapping entries) flip := by
    intro flip isFlip
    have same : lookupText flip dumped = lookupText flip entries := by
      rw [looked, admits.get?_checked json (formOf?_flip isFlip), get?]
      cases given : lookupText flip entries with
      | none => rfl
      | some inner =>
          obtain rfl := Visits.flag_eq_true flags (formOf?_flip isFlip) given
          rw [Option.map_some, Value.checked_flag (.inl rfl)]
    rw [setFlip, setFlip, get?, get?, same]
  rw [written, resolveOffset_eq, resolveOffset_eq]
  apply (axis "x" (by decide)).bind
  intro x u first
  apply (axis "y" (by decide)).map
  intro y v second
  exact sameNumbers_resolvedMembers first second flips

theorem Admits.placement_sameNumbers {model : ModelName} (isPlacement : model ∈ placementModels)
    (admits : Admits .validation (.model model) (.mapping entries))
    (flags : ∀ place, Visits (.model model) (.mapping entries) .flag place → place = .boolean true)
    {name : String} (other : name ≠ "offset") :
    Option.Rel SameNumbers (((Value.mapping entries).checked (.model model)).get? name)
      (lookupText name entries) := by
  by_cases declared : name ∈ model.definition.fieldNames
  · obtain ⟨field, inFields, rfl⟩ := List.mem_map.mp declared
    have form := ModelName.formOf?_of_mem inFields
    have atomic := placementField_isAtomic model isPlacement field inFields other
    rw [admits.get?_checked json form, get?]
    cases given : lookupText field.name entries with
    | none => exact .none
    | some inner =>
        have inside := lookupText_eq_some_mem given
        apply Option.Rel.some
        apply Admits.sameNumbers (json.entry inside) (exact.part (.entry inside .self))
          (admits.of_get? form given) atomic
        intro isFlag
        rw [isFlag] at form
        exact Visits.flag_eq_true flags form given
  · have closed : ∀ model ∈ placementModels, model.definition.closed = true := by decide
    rw [admits.lookup_eq_none (closed model isPlacement) declared]
    cases given : ((Value.mapping entries).checked (.model model)).get? name with
    | none => exact .none
    | some inner =>
        have conforms := json.isSound.conforms (admits.passes json rfl).check_eq
        obtain ⟨field, inFields, rfl, -⟩ := conforms.declared given
        exact absurd (Definition.mem_fieldNames inFields) declared

theorem Admits.placement_drawsAlike (numeric : source.IsNumeric) {model : ModelName}
    (isPlacement : model ∈ placementModels)
    (admits : Admits .validation (.model model) (.mapping entries))
    (flags : ∀ place, Visits (.model model) (.mapping entries) .flag place → place = .boolean true) :
    DrawsAlike source (fun mapping plain => SameNumbers (.mapping mapping) (.mapping plain))
      (resolvePlacement source ((Value.mapping entries).checked (.model model)))
      (resolvePlacement source (.mapping entries)) := by
  have conforms := json.isSound.conforms (admits.passes json rfl).check_eq
  have same (name : String) (other : name ≠ "offset") :=
    Admits.placement_sameNumbers json exact isPlacement admits flags other
  have offset := admits.get?_checked json (formOf?_offset isPlacement)
  generalize (Value.mapping entries).checked (.model model) = options at conforms same offset ⊢
  obtain ⟨fields, rfl, -⟩ := conforms.eq_record
  have written := conforms.placementEntries_record isPlacement
  have members {x u : Option Value} := sameNumbers_withOffset conforms.namesDiffer json.node same x u
  have looked := lookupText_placedEntries dump fields "offset"
  rw [get?, get?] at offset
  have plainLooked : lookupText "offset" (placementEntries (.mapping entries)) =
      lookupText "offset" entries := rfl
  cases given : lookupText "offset" entries with
  | none =>
      rw [offset, given, Option.map_none, Option.map_none, ← written] at looked
      rw [resolvePlacement_unplaced looked, resolvePlacement_unplaced (plainLooked.trans given), written]
      exact .pure (members .none)
  | some plain =>
      have plainAdmits := admits.of_get? (formOf?_offset isPlacement) given
      obtain ⟨⟨inner, rfl, fits⟩, -⟩ := (admits_whole_iff rfl).mp plainAdmits
      have inside := lookupText_eq_some_mem given
      have isPart := Form.mem_parts_of_declared (formOf?_offset isPlacement) inside
      have alike := Admits.offset_drawsAlike (json.entry inside) (exact.part (.entry inside .self))
        numeric plainAdmits fun place visits => flags place (.part isPart visits)
      rw [given, Option.map_some] at offset
      have truthy := (conforms.placement_offset isPlacement offset).isTruthy_written
      have filled : inner ≠ [] := fits.met .someKey (by decide)
      have plainTruthy : (Value.mapping inner).isTruthy = true := by simp [isTruthy, filled]
      rw [offset, Option.map_some, if_pos rfl, ← written] at looked
      rw [resolvePlacement_placed looked truthy,
        resolvePlacement_placed (plainLooked.trans given) plainTruthy, written]
      exact alike.map fun _ _ pair => members (.some pair)

end

/--
Validated options and the plain object that they were read from are resolved alike: the mappings have the
same keys with equal values, and the same numbers are drawn.  Neither fails, unless a draw does.
-/
theorem resolvePlacement_alike {value options : Value} (json : value.IsJson) {model : ModelName}
    (isPlacement : model ∈ placementModels) (validated : value.check (.model model) = .ok options)
    (flags : ∀ place, Visits (.model model) value .flag place → place = .boolean true)
    (exact : value.HasExactIntegers) {σ : Type} (source : RandomSource σ)
    (numeric : source.IsNumeric) :
    DrawsAlike source (fun mapping plain => SameNumbers (.mapping mapping) (.mapping plain))
        (resolvePlacement source options) (resolvePlacement source value) ∧
      ((∀ low high state, ∃ answer, source.uniform low high state = .ok answer) → ∀ state,
        ∃ mapping plain next, resolvePlacement source options state = .ok (mapping, next) ∧
          resolvePlacement source value state = .ok (plain, next) ∧
          SameNumbers (.mapping mapping) (.mapping plain)) := by
  obtain ⟨passes, rfl⟩ := Value.check_eq_ok_iff.mp validated
  have admits := (json.passes_iff_of_uniform rfl).mp passes
  obtain ⟨⟨entries, rfl, -⟩, -⟩ := (admits_whole_iff rfl).mp admits
  have alike := Admits.placement_drawsAlike json exact numeric isPlacement admits flags
  exact ⟨alike, fun answers state => (alike state).exists_ok answers⟩

/-! ### A source that is numeric -/

/-- Equal doubles are the same double once zero is added. -/
theorem Double.add_zero_congr {x y : Double} (first : (Numeral.double x).IsOrdered)
    (second : (Numeral.double y).IsOrdered)
    (same : (Numeral.double x).place = (Numeral.double y).place) : x.add .zero = y.add .zero := by
  rw [← Numeral.isEqual_iff first second, ← Double.isEqual_eq] at same
  rcases x with ⟨negative, magnitude⟩ | negative | _ <;>
    rcases y with ⟨sign, other⟩ | sign | _
  · have units : signed negative magnitude.units = signed sign other.units := by
      simpa [Double.isEqual] using same
    simp only [Double.add, Double.zero, units, Bool.and_false]
  · exact absurd same Bool.false_ne_true
  · exact absurd same Bool.false_ne_true
  · exact absurd same Bool.false_ne_true
  · have signs : negative = sign := by simpa [Double.isEqual] using same
    rw [signs]
  · exact absurd same Bool.false_ne_true
  · exact absurd same Bool.false_ne_true
  · exact absurd same Bool.false_ne_true
  · exact absurd same Bool.false_ne_true

theorem RandomSource.lower_isNumeric : lower.IsNumeric := by
  intro a b c d first _
  obtain ⟨orderedA, orderedC⟩ := Numeral.isOrdered_of_isEqual first
  have place := Numeral.place_of_isEqual first
  have rounded : (a.toDouble?.getD .zero).add .zero = (c.toDouble?.getD .zero).add .zero := by
    cases roundedA : a.toDouble? with
    | some x =>
        obtain ⟨y, roundedC, same⟩ := Numeral.toDouble?_congr place roundedA
        rw [roundedC]
        exact Double.add_zero_congr (Numeral.toDouble?_isOrdered orderedA roundedA)
          (Numeral.toDouble?_isOrdered orderedC roundedC) same.symm
    | none =>
        cases roundedC : c.toDouble? with
        | none => rfl
        | some y =>
            obtain ⟨x, again, _⟩ := Numeral.toDouble?_congr place.symm roundedC
            rw [roundedA] at again
            exact nomatch again
  funext draws
  exact congrArg (fun x => Except.ok (x, draws + 1)) rounded

theorem resolvePlacement_alike_besideToken :
    let options := besideToken.checked (.model .attachToOptions)
    ∃ mapping plain draws, resolvePlacement .lower options 0 = .ok (mapping, draws) ∧
      resolvePlacement .lower besideToken 0 = .ok (plain, draws) ∧
      SameNumbers (.mapping mapping) (.mapping plain) := by
  intro options
  have json : besideToken.IsJson := by decide
  have passes : besideToken.Passes (.model .attachToOptions) := by decide +kernel
  have admits := (json.passes_iff_of_uniform rfl).mp passes
  have flags := admits.flags_true (by decide +kernel)
  obtain ⟨-, resolves⟩ := resolvePlacement_alike json (by decide) passes.check_eq flags (by decide)
    .lower RandomSource.lower_isNumeric
  exact resolves (fun low _ draws => ⟨((low.toDouble?.getD .zero).add .zero, draws + 1), rfl⟩) 0

end AnimationGrammar
