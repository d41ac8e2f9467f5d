import AnimationGrammar.Playback.Offset
import AnimationGrammar.Proofs.Validation.Conforming

/-!
Placements and the numbers that they draw.

A validated placement is absent, only switched on, or a record.  Its offset may give a range in place of
a number for either axis.  Every range draws one number, and nothing else does, so with enough numbers
at hand the options of a placement can always be resolved.
-/

namespace AnimationGrammar

open Value

/-! ### Numbers that are drawn -/

def Value.isRange : Value → Bool
  | .list _ => true
  | .tuple _ => true
  | _ => false

def offsetAxes : List String := ["x", "y"]

def axisDraws (offset : Value) (axis : String) : Nat :=
  if (offset.get? axis).any isRange then 1 else 0

def offsetDraws (offset : Value) : Nat := (offsetAxes.map (axisDraws offset)).sum

/-- How many numbers a placement draws: those of its offset. -/
def placementDraws (placement : Value) : Nat :=
  ((placement.get? "offset").map offsetDraws).getD 0

/-- What may be given for an axis: a number, or two numbers to pick from. -/
inductive IsAxis : Option Value → Prop
  | absent : IsAxis none
  | fixed {x} : IsAxis (some (.double x))
  | range {a b} : IsAxis (some (.tuple [.double a, .double b]))

theorem drawFrom_ofList (a b fraction : Double) (rest : List Double) :
    ∃ x, drawFrom .ofList [.double a, .double b] (fraction :: rest) = .ok (x, rest) := by
  have ordered : ∃ low high : Double,
      sortedBounds [.double a, .double b] = .ok (.double low, .double high) := by
    simp only [sortedBounds, boundIsLess, boundNumeral?, Atom.numeral?]
    cases (Numeral.double b).isLess (.double a) with
    | true => exact ⟨b, a, rfl⟩
    | false => exact ⟨a, b, rfl⟩
  obtain ⟨low, high, sorted⟩ := ordered
  refine ⟨low.add ((high.subtract low).multiply fraction), ?_⟩
  rw [drawFrom, sorted]
  rfl

theorem resolveAxis_ofList (offset : Value) {axis : String} (plain : IsAxis (offset.get? axis))
    (numbers : List Double) (enough : axisDraws offset axis ≤ numbers.length) :
    ∃ found, resolveAxis .ofList offset axis numbers =
      .ok (found, numbers.drop (axisDraws offset axis)) := by
  unfold axisDraws at enough ⊢
  unfold resolveAxis
  generalize offset.get? axis = given at plain enough
  cases plain with
  | absent => exact ⟨[], rfl⟩
  | @fixed x => exact ⟨[(.text axis, .double x)], rfl⟩
  | @range a b =>
      cases numbers with
      | nil => simp [isRange] at enough
      | cons fraction rest =>
          obtain ⟨x, drawn⟩ := drawFrom_ofList a b fraction rest
          exact ⟨[(.text axis, .double x)], by simp [drawn, Except.map, isRange]⟩

theorem resolveOffset_ofList {members : List (Atom × Value)}
    (plain : ∀ axis ∈ offsetAxes, IsAxis (lookupText axis members)) {numbers : List Double}
    (enough : offsetDraws (.mapping members) ≤ numbers.length) :
    ∃ resolved, resolveOffset .ofList (.mapping members) numbers =
      .ok (resolved, numbers.drop (offsetDraws (.mapping members))) := by
  have count : offsetDraws (.mapping members) =
      axisDraws (.mapping members) "x" + axisDraws (.mapping members) "y" := rfl
  rw [count] at enough ⊢
  obtain ⟨x, first⟩ := resolveAxis_ofList (.mapping members) (plain "x" (by decide)) numbers (by omega)
  obtain ⟨y, second⟩ := resolveAxis_ofList (.mapping members) (plain "y" (by decide))
    (numbers.drop (axisDraws (.mapping members) "x")) (by rw [List.length_drop]; omega)
  refine ⟨.mapping (x ++ y ++ resolveFlips (.mapping members)), ?_⟩
  rw [resolveOffset, first]
  simp only
  rw [second, List.drop_drop]
  rfl

/-- The options of a placement take from the numbers what its offset draws. -/
theorem resolvePlacement_ofList {placement : Value}
    (plain : ∀ offset, lookupText "offset" (placementEntries placement) = some offset →
      ∃ members, offset = .mapping members ∧ ∀ axis ∈ offsetAxes, IsAxis (lookupText axis members))
    {draws : Nat} (count : ((lookupText "offset" (placementEntries placement)).map offsetDraws).getD 0 =
      draws) {numbers : List Double} (enough : draws ≤ numbers.length) :
    ∃ options, resolvePlacement .ofList placement numbers = .ok (options, numbers.drop draws) := by
  simp only [resolvePlacement]
  cases given : lookupText "offset" (placementEntries placement) with
  | none =>
      rw [given] at count
      subst count
      exact ⟨_, rfl⟩
  | some offset =>
      obtain ⟨members, rfl, axes⟩ := plain offset given
      rw [given, Option.map_some, Option.getD_some] at count
      subst count
      cases members with
      | nil => exact ⟨_, rfl⟩
      | cons member rest =>
          obtain ⟨resolved, taken⟩ := resolveOffset_ofList axes enough
          simp only [isTruthy, List.isEmpty_cons, Bool.not_false, if_true, taken]
          exact ⟨_, rfl⟩

/-! ### Placements that are validated -/

theorem lookup_eq_none_of_fresh {α : Type} {name : String} {members : List (String × α)}
    (fresh : name ∉ members.map Prod.fst) : members.lookup name = none := by
  rw [List.lookup_eq_none_iff]
  intro member membership
  rw [bne_iff_ne]
  rintro rfl
  exact fresh (List.mem_map_of_mem membership)

theorem lookupText_dumpFields {fields : List (String × Value)}
    (namesDiffer : (fields.map Prod.fst).Nodup) (name : String) :
    lookupText name (dumpFields fields) = (fields.lookup name).bind fun value =>
      if value.kind? = some .null then none else some value.dump := by
  induction fields with
  | nil => rfl
  | cons field rest inductionHypothesis =>
      rcases field with ⟨key, value⟩
      rw [List.map_cons, List.nodup_cons] at namesDiffer
      have later := inductionHypothesis namesDiffer.2
      by_cases isNull : value.kind? = some .null
      · have dropped : dumpFields ((key, value) :: rest) = dumpFields rest := by
          cases value with
          | atom a => cases a <;> simp_all [kind?, atomKind?, dumpFields]
          | _ => simp [kind?] at isNull
        rw [dropped, later]
        by_cases same : name = key
        · subst same
          simp [lookup_eq_none_of_fresh namesDiffer.1, isNull]
        · simp [List.lookup_cons, beq_false_of_ne same]
      · have kept : dumpFields ((key, value) :: rest) = (.text key, value.dump) :: dumpFields rest := by
          rw [dumpFields]
          rintro rfl
          exact isNull rfl
        rw [kept, lookupText, later]
        by_cases same : name = key
        · simp [same, isNull]
        · simp [List.lookup_cons, beq_false_of_ne same, Ne.symm same]

theorem Conforms.axis_cases {axis : Value} (conforms : Conforms .offsetDimension axis) :
    (∃ x : Double, axis = .double x) ∨
      ∃ a b : Double, axis = .tuple [.double a, .double b] ∧ Conforms .offsetRange axis := by
  obtain ⟨branch, inBranches, inner⟩ := conforms.branch
  simp only [List.mem_cons, List.not_mem_nil, or_false] at inBranches
  rcases inBranches with rfl | rfl
  · exact .inl (inner.eq_double rfl)
  · obtain ⟨a, b, same⟩ := inner.eq_pair
    exact .inr ⟨a, b, same, inner⟩

theorem Conforms.isAxis {axis : Value} (conforms : Conforms .offsetDimension axis) :
    IsAxis (some axis) := by
  rcases conforms.axis_cases with ⟨x, rfl⟩ | ⟨a, b, rfl, _⟩
  · exact .fixed
  · exact .range

theorem IsAxis.bind_dump {axis : Option Value} (isAxis : IsAxis axis) :
    (axis.bind fun value => if value.kind? = some .null then none else some value.dump) = axis := by
  cases isAxis with
  | absent => rfl
  | fixed => rfl
  | range => rfl

theorem formOf?_axis {axis : String} (isAxis : axis ∈ offsetAxes) :
    ModelName.offset.definition.formOf? (.text axis) = some .offsetDimension := by
  simp only [offsetAxes, List.mem_cons, List.not_mem_nil, or_false] at isAxis
  rcases isAxis with rfl | rfl <;> rfl

theorem Conforms.offset_axes {offset : Value} (conforms : Conforms (.model .offset) offset) :
    ∃ members, offset.dump = .mapping members ∧ ∀ axis ∈ offsetAxes,
      IsAxis (offset.get? axis) ∧ lookupText axis members = offset.get? axis := by
  obtain ⟨fields, rfl, holds⟩ := conforms.eq_record
  refine ⟨dumpFields fields, rfl, fun axis isAxis => ?_⟩
  have plain : IsAxis ((Value.record .offset fields).get? axis) := by
    cases given : (Value.record .offset fields).get? axis with
    | none => exact .absent
    | some inner => exact (conforms.field (formOf?_axis isAxis) given).isAxis
  exact ⟨plain, (lookupText_dumpFields holds.namesDiffer axis).trans plain.bind_dump⟩

/-- What a preset may hold for a placement. -/
inductive IsPlacement : Value → Prop
  | absent : IsPlacement .null
  | switched : IsPlacement (.boolean true)
  | record {model fields} : (fields.map Prod.fst).Nodup →
      (∀ offset, fields.lookup "offset" = some offset → Conforms (.model .offset) offset) →
      IsPlacement (.record model fields)

theorem Conforms.isPlacement {name : ModelName} {placement : Value}
    (conforms : Conforms (.model name) placement)
    (offset : name.definition.formOf? (.text "offset") = some (.model .offset)) :
    IsPlacement placement := by
  obtain ⟨fields, rfl, holds⟩ := conforms.eq_record
  exact .record holds.namesDiffer fun inner given => conforms.field offset given

/-- With enough numbers at hand the options of a placement are found, and its offset draws as many numbers
as it has ranges. -/
theorem IsPlacement.resolves {placement : Value} (isPlacement : IsPlacement placement)
    {numbers : List Double} (enough : placementDraws placement ≤ numbers.length) :
    ∃ options, resolvePlacement .ofList placement numbers =
      .ok (options, numbers.drop (placementDraws placement)) := by
  cases isPlacement with
  | absent => exact ⟨_, rfl⟩
  | switched => exact ⟨_, rfl⟩
  | @record model fields namesDiffer offsets =>
      have entries : lookupText "offset" (placementEntries (.record model fields)) =
          (fields.lookup "offset").map dump := by
        refine (lookupText_dumpFields namesDiffer "offset").trans ?_
        cases given : fields.lookup "offset" with
        | none => rfl
        | some offset =>
            obtain ⟨inner, rfl, _⟩ := (offsets offset given).eq_record
            rfl
      apply resolvePlacement_ofList ?_ ?_ enough
      · intro offset plain
        rw [entries, Option.map_eq_some_iff] at plain
        obtain ⟨validated, given, rfl⟩ := plain
        obtain ⟨members, same, axes⟩ := (offsets validated given).offset_axes
        exact ⟨members, same, fun axis isAxis => (axes axis isAxis).2 ▸ (axes axis isAxis).1⟩
      · rw [entries, Option.map_map, placementDraws]
        cases given : fields.lookup "offset" with
        | none => simp [get?, given]
        | some offset =>
            obtain ⟨members, same, axes⟩ := (offsets offset given).offset_axes
            have draws : offsetDraws offset.dump = offsetDraws offset := by
              rw [same]
              refine congrArg List.sum (List.map_congr_left fun axis isAxis => ?_)
              rw [axisDraws, axisDraws, get?, (axes axis isAxis).2]
            simp [get?, given, draws]

end AnimationGrammar
