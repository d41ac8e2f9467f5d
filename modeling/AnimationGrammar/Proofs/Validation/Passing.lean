import AnimationGrammar.Proofs.Grammar.Admission
import AnimationGrammar.Proofs.Validation.Location
import Mathlib.Data.List.Zip

/-!
Which values pass a form that is no model.

`Reading.validation` is how validation reads the grammar: numbers are rounded to doubles before they
are looked at, and a flag may be written as the number one.  A value passes a form when the value fits
the form under this reading and every part passes the form of its place.
-/

namespace AnimationGrammar

open Outcome

/-- How validation reads the grammar. -/
def Reading.validation : Reading where
  flag value := value = .boolean true ∨ ∃ n, value = .number n ∧ n.isEqual (.integer 1) = true
  number rule n := ∃ checked, rule.check n = .ok checked
  distinct items := ∀ a b rest x y, items = .number a :: .number b :: rest →
    a.toDouble? = some x → b.toDouble? = some y → x.isEqual y = false
  unique items := repetition? items = none
  ordered entries := ∀ a b x y, lookupText "delayMax" entries = some (.number a) →
    lookupText "delayMin" entries = some (.number b) →
    a.toDouble? = some x → b.toDouble? = some y → x.isAtMost y = false

/-- Whether a value is in order for a form. -/
def Value.Passes (value : Value) (form : Form) : Prop := ∃ result, value.check form = .ok result

instance (value : Value) (form : Form) : Decidable (value.Passes form) :=
  match outcome : value.check form with
  | .ok result => .isTrue ⟨result, outcome⟩
  | .error _ => .isFalse fun ⟨_, passed⟩ => by cases outcome.symm.trans passed

/-! ### Refusals give a reason -/

def Outcome.GivesReason (outcome : Outcome) : Prop := outcome ≠ .error []

namespace Outcome

theorem givesReason_ok (value : Value) : GivesReason (.ok value) := by simp [GivesReason]

theorem givesReason_refuse (cause : Cause) : (refuse cause).GivesReason := by
  simp [GivesReason, refuse]

theorem GivesReason.under {outcome : Outcome} (reason : outcome.GivesReason) (step : Step) :
    (under step outcome).GivesReason := by
  cases outcome with
  | ok value => exact givesReason_ok value
  | error faults => simpa [GivesReason, Outcome.under] using reason

theorem GivesReason.underLabels {outcome : Outcome} (reason : outcome.GivesReason)
    (labels : List String) : (underLabels labels outcome).GivesReason := by
  induction labels with
  | nil => exact reason
  | cons label rest inductionHypothesis => exact inductionHypothesis.under _

theorem collect_ne_nil {outcomes : List Outcome}
    (each : ∀ outcome ∈ outcomes, outcome.GivesReason) : collect outcomes ≠ .error [] := by
  induction outcomes with
  | nil => simp [collect]
  | cons outcome rest inductionHypothesis =>
      have tail := inductionHypothesis fun other inRest => each other (List.mem_cons_of_mem _ inRest)
      cases outcome with
      | ok value =>
          rw [collect]
          cases collected : collect rest with
          | ok values => simp [Except.map]
          | error faults =>
              rw [collected] at tail
              simpa [Except.map] using tail
      | error faults =>
          have own := each (.error faults) List.mem_cons_self
          rw [collect]
          split <;> simp_all [GivesReason]

end Outcome

theorem mem_atPositions {position : Nat} {outcomes : List Outcome} {outcome : Outcome}
    (membership : outcome ∈ atPositions position outcomes) :
    ∃ inner ∈ outcomes, ∃ index, outcome = under (.index index) inner := by
  rw [atPositions_eq, List.mem_map] at membership
  obtain ⟨⟨inner, index⟩, paired, rfl⟩ := membership
  exact ⟨inner, List.fst_mem_of_mem_zipIdx paired, index, rfl⟩

theorem givesReason_finishList {items : List Value} {minLength : Option Nat} {unique : Bool}
    {outcomes : List Outcome} (each : ∀ outcome ∈ outcomes, outcome.GivesReason) :
    (finishList items minLength unique outcomes).GivesReason := by
  have parts : collect (atPositions 0 outcomes) ≠ .error [] := by
    refine collect_ne_nil fun outcome membership => ?_
    obtain ⟨inner, inOutcomes, index, rfl⟩ := mem_atPositions membership
    exact (each inner inOutcomes).under _
  rw [finishList]
  split
  next faults refused =>
      rw [refused] at parts
      simpa [GivesReason] using parts
  next values accepted =>
      simp only
      split
      · exact givesReason_refuse _
      · split
        · exact givesReason_refuse _
        · exact givesReason_ok _

theorem givesReason_finishTuple {size actual : Nat} {distinct : Bool} {outcomes : List Outcome}
    (each : ∀ outcome ∈ outcomes, outcome.GivesReason) :
    (finishTuple size actual distinct outcomes).GivesReason := by
  have parts : collect (atPositions 0 outcomes) ≠ .error [] := by
    refine collect_ne_nil fun outcome membership => ?_
    obtain ⟨inner, inOutcomes, index, rfl⟩ := mem_atPositions membership
    exact (each inner inOutcomes).under _
  rw [finishTuple]
  split
  · exact givesReason_refuse _
  · split
    next faults refused =>
        rw [refused] at parts
        simpa [GivesReason] using parts
    next values accepted =>
        split
        · exact givesReason_refuse _
        · exact givesReason_ok _

theorem givesReason_assemble (name : ModelName) (checked : List (Atom × Option Outcome)) :
    (name.assemble checked).GivesReason := by
  simp only [ModelName.assemble]
  split
  · split
    · exact givesReason_refuse _
    · exact givesReason_ok _
  next given =>
      simpa [GivesReason] using given

theorem Value.givesReason_checkWhole (value : Value) (form : Form) :
    (value.checkWhole form).GivesReason := by
  rcases value.checkWhole_cases form with ⟨result, _, taken⟩ | ⟨cause, _, refused⟩
  · exact taken ▸ givesReason_ok result
  · exact refused ▸ givesReason_refuse cause

namespace Value

theorem givesReason_of_settled {value : Value} {form : Form}
    (settled : ∀ labels inner, form.Settles value labels inner →
      (value.checkSettled inner).GivesReason) : (value.check form).GivesReason := by
  rcases Form.settles_or_strays value form with
    ⟨labels, inner, settles, _⟩ | ⟨labels, cause, strays, _⟩
  · rw [check_of_settles settles]
    exact (settled labels inner settles).underLabels labels
  · rw [check_of_strays strays]
    exact (givesReason_refuse cause).underLabels labels

theorem givesReason_checkJson (value : Value) : value.checkJson.GivesReason := by
  unfold checkJson
  split
  · exact givesReason_ok _
  next given => simpa [GivesReason] using given

theorem givesReason (value : Value) :
    ∀ form : Form, form.isRegular = true → (value.check form).GivesReason := by
  induction value using layerInduction with
  | atom a | record model fields =>
      intro form regular
      refine givesReason_of_settled fun labels inner settles => ?_
      cases inner with
      | anyJson => exact checkSettled_anyJson _ ▸ givesReason_checkJson _
      | _ =>
          simp only [checkSettled]
          exact givesReason_checkWhole _ _
  | list items inductionHypothesis | tuple items inductionHypothesis =>
      intro form regular
      refine givesReason_of_settled fun labels inner settles => ?_
      have innerRegular := settles.isRegular regular
      cases inner with
      | list item minLength unique =>
          refine givesReason_finishList fun outcome membership => ?_
          obtain ⟨part, inItems, rfl⟩ := List.mem_map.mp membership
          exact inductionHypothesis part inItems item innerRegular
      | tuple positions distinct =>
          simp only [Form.isRegular, Bool.and_eq_true, Form.areRegular_iff] at innerRegular
          refine givesReason_finishTuple fun outcome membership => ?_
          rw [checkPositions_eq, List.mem_append, List.mem_map, List.mem_map] at membership
          rcases membership with ⟨⟨part, position⟩, paired, rfl⟩ | ⟨position, _, rfl⟩
          · obtain ⟨inItems, inPositions⟩ := List.of_mem_zip paired
            exact inductionHypothesis part inItems position (innerRegular.1 position inPositions)
          · exact givesReason_refuse _
      | anyJson => exact checkSettled_anyJson _ ▸ givesReason_checkJson _
      | _ =>
          simp only [checkSettled]
          exact givesReason_checkWhole _ _
  | mapping entries =>
      intro form regular
      refine givesReason_of_settled fun labels inner settles => ?_
      cases inner with
      | model name => exact givesReason_assemble name _
      | dictionary key item => simpa [Form.isRegular] using settles.isRegular regular
      | anyJson => exact checkSettled_anyJson _ ▸ givesReason_checkJson _
      | _ =>
          simp only [checkSettled]
          exact givesReason_checkWhole _ _

end Value

/-! ### Forms without models -/

theorem TextRule.check_eq_ok_iff {rule : TextRule} {content checked : String} :
    rule.check content = .ok checked ↔ rule.Accepts content ∧ content = checked := by
  cases rule with
  | any => simp [check, Accepts]
  | nonEmpty => by_cases empty : content = "" <;> simp [check, Accepts, empty]
  | format kind => by_cases accepted : kind.accepts content = true <;> simp [check, Accepts, accepted]
  | animationId =>
      by_cases accepted : TextFormat.slug.accepts content = true
      · by_cases short : content.length < 6
        · simp [check, Accepts, accepted, short]
        · simp [check, Accepts, accepted, short, not_lt.mp short]
      · simp [check, Accepts, accepted]

theorem TextRule.Accepts.check_eq {rule : TextRule} {content : String}
    (accepted : rule.Accepts content) : rule.check content = .ok content :=
  check_eq_ok_iff.mpr ⟨accepted, rfl⟩

/-- Whether a form looks at a value as a whole. -/
def Form.isAtomic : Form → Bool
  | .text _ => true
  | .number _ => true
  | .literal _ => true
  | .flag => true
  | _ => false

theorem Form.isWhole_of_isAtomic {form : Form} (atomic : form.isAtomic = true) :
    form.isChoice = false := by
  cases form with
  | choice dispatch branches => simp [isAtomic] at atomic
  | _ => rfl

theorem Value.checkSettled_atomic {form : Form} (atomic : form.isAtomic = true) (value : Value) :
    value.checkSettled form = value.checkWhole form := by
  cases form <;> simp [Form.isAtomic] at atomic <;> cases value <;> rfl

theorem Value.check_atomic {form : Form} (atomic : form.isAtomic = true) (value : Value) :
    value.check form = value.checkWhole form := by
  rw [check_whole (Form.isWhole_of_isAtomic atomic), checkSettled_atomic atomic]

theorem Value.exists_takenWhole_iff {value : Value} {form : Form} (json : value.IsJson)
    (atomic : form.isAtomic = true) :
    (∃ result, TakenWhole form value result) ↔ form.Fits .validation value := by
  constructor
  · rintro ⟨result, taken⟩
    cases taken with
    | text passed =>
        obtain ⟨content, read, accepted⟩ := TextRule.read_eq_ok_iff.mp passed
        exact ⟨content, json.readText_eq_ok_iff.mp read, (TextRule.check_eq_ok_iff.mp accepted).1⟩
    | number passed => exact ⟨_, rfl, _, passed⟩
    | literal chosen => exact ⟨_, chosen, rfl⟩
    | flag => exact .inl rfl
    | one one => exact .inr ⟨_, rfl, one⟩
    | _ => simp [Form.isAtomic] at atomic
  · intro fits
    cases form with
    | text rule =>
        obtain ⟨content, rfl, accepted⟩ := fits
        exact ⟨_, .text accepted.check_eq⟩
    | number rule =>
        obtain ⟨n, rfl, checked, passed⟩ := fits
        exact ⟨_, .number passed⟩
    | literal choices =>
        obtain ⟨content, chosen, rfl⟩ := fits
        exact ⟨_, .literal chosen⟩
    | flag =>
        rcases fits with rfl | ⟨n, rfl, one⟩
        · exact ⟨_, .flag⟩
        · exact ⟨_, .one one⟩
    | _ => simp [Form.isAtomic] at atomic

theorem Value.passes_atomic_iff {value : Value} {form : Form} (json : value.IsJson)
    (atomic : form.isAtomic = true) : value.Passes form ↔ form.Fits .validation value := by
  simp only [Passes, check_atomic atomic, checkWhole_eq_ok_iff, exists_takenWhole_iff json atomic]

theorem exists_eq_map_ok_iff {outcomes : List Outcome} :
    (∃ values : List Value, outcomes = values.map .ok) ↔
      ∀ outcome ∈ outcomes, ∃ value, outcome = .ok value := by
  induction outcomes with
  | nil => exact ⟨fun _ => by simp, fun _ => ⟨[], rfl⟩⟩
  | cons outcome rest inductionHypothesis =>
      rw [List.forall_mem_cons, ← inductionHypothesis]
      constructor
      · rintro ⟨values, same⟩
        cases values with
        | nil => simp at same
        | cons value values =>
            rw [List.map_cons, List.cons.injEq] at same
            exact ⟨⟨value, same.1⟩, values, same.2⟩
      · rintro ⟨⟨value, rfl⟩, values, rfl⟩
        exact ⟨value :: values, rfl⟩

theorem finishList_passes_iff {items : List Value} {minLength : Option Nat} {unique : Bool}
    {form : Form} :
    (∃ result, finishList items minLength unique (items.map fun item => item.check form) =
        .ok result) ↔
      (∀ item ∈ items, item.Passes form) ∧ minLength.getD 0 ≤ items.length ∧
        (unique = true → repetition? items = none) := by
  have parts : (∃ values : List Value, (items.map fun item => item.check form) =
      values.map .ok) ↔ ∀ item ∈ items, item.Passes form := by
    rw [exists_eq_map_ok_iff, List.forall_mem_map]
    rfl
  rw [finishList, ← parts]
  split
  next faults refused =>
      have none : ¬ ∃ values : List Value, (items.map fun item => item.check form) =
          values.map .ok := by
        rintro ⟨values, same⟩
        rw [collect_atPositions_eq_ok_iff.mpr same] at refused
        simp at refused
      simp [none]
  next values accepted =>
      rw [collect_atPositions_eq_ok_iff] at accepted
      have length : values.length = items.length := by
        have lengths := congrArg List.length accepted
        simpa using lengths.symm
      simp only [length]
      by_cases short : items.length < minLength.getD 0
      · simp [short, refuse_ne_ok, not_le.mpr short]
      · rw [if_neg short]
        have enough : minLength.getD 0 ≤ items.length := not_lt.mp short
        have given : ∃ values : List Value, (items.map fun item => item.check form) =
            values.map .ok := ⟨values, accepted⟩
        cases unique with
        | false => simp [enough, given]
        | true => cases repetition? items <;> simp [enough, given, refuse_ne_ok]

theorem finishTuple_passes_iff {size actual : Nat} {distinct : Bool} {outcomes : List Outcome} :
    (∃ result, finishTuple size actual distinct outcomes = .ok result) ↔
      actual ≤ size ∧ ∃ values : List Value, outcomes = values.map .ok ∧
        (distinct = true → startsWithEqualNumbers values = false) := by
  rw [finishTuple]
  by_cases long : size < actual
  · simp [long, refuse_ne_ok, not_le.mpr long]
  · rw [if_neg long]
    have fits : actual ≤ size := not_lt.mp long
    cases collected : collect (atPositions 0 outcomes) with
    | error faults =>
        have none : ∀ values : List Value, outcomes ≠ values.map .ok := by
          intro values same
          rw [collect_atPositions_eq_ok_iff.mpr same] at collected
          simp at collected
        simp [none]
    | ok values =>
        have accepted := collect_atPositions_eq_ok_iff.mp collected
        have only {others : List Value} (same : outcomes = others.map .ok) : others = values := by
          rw [collect_atPositions_eq_ok_iff.mpr same, Except.ok.injEq] at collected
          exact collected
        constructor
        · rintro ⟨result, passed⟩
          refine ⟨fits, values, accepted, fun needed => ?_⟩
          simp only [needed, Bool.true_and] at passed
          by_contra equal
          rw [Bool.not_eq_false] at equal
          simp [equal, refuse] at passed
        · rintro ⟨_, others, same, differ⟩
          obtain rfl := only same
          refine ⟨.tuple others, ?_⟩
          cases distinct with
          | false => simp
          | true => simp [differ]

theorem checkPositions_passes_iff {items : List Value} {positions : List Form} :
    (∃ values : List Value, Value.checkPositions items positions = values.map .ok) ↔
      positions.length ≤ items.length ∧ ∀ part ∈ positions.zip items, part.2.Passes part.1 := by
  rw [exists_eq_map_ok_iff, Value.checkPositions_eq, List.forall_mem_append, List.forall_mem_map,
    List.forall_mem_map]
  have missing : (∀ position ∈ positions.drop items.length, ∃ value, refuse .missing = .ok value) ↔
      positions.length ≤ items.length := by
    rw [← List.drop_eq_nil_iff]
    simp [refuse, List.eq_nil_iff_forall_not_mem]
  rw [missing, and_comm]
  refine and_congr_right fun _ => ?_
  rw [← List.zip_swap items positions, List.forall_mem_map]
  rfl

theorem NumberRule.check_plain {n m : Numeral} :
    ({} : NumberRule).check n = .ok m ↔ ∃ x, n.toDouble? = some x ∧ m = .double x := by
  have unbounded (x : Double) : ({} : NumberRule).bounds.failure? x = none := rfl
  rw [check]
  cases n.toDouble? <;> simp [unbounded, eq_comm]

theorem Value.check_plainNumber {value result : Value} :
    value.check (.number {}) = .ok result ↔
      ∃ n x, value = .number n ∧ n.toDouble? = some x ∧ result = .double x := by
  rw [check_atomic rfl, checkWhole_eq_ok_iff]
  constructor
  · rintro (_ | passed)
    obtain ⟨x, rounded, rfl⟩ := NumberRule.check_plain.mp passed
    exact ⟨_, x, rfl, rounded, rfl⟩
  · rintro ⟨n, x, rfl, rounded, rfl⟩
    exact .number (NumberRule.check_plain.mpr ⟨x, rounded, rfl⟩)

/-- What has to differ in a pair of numbers are their roundings. -/
theorem startsWithEqualNumbers_eq_false_iff {first second checked other : Value}
    (left : first.check (.number {}) = .ok checked)
    (right : second.check (.number {}) = .ok other) :
    startsWithEqualNumbers [checked, other] = false ↔
      Reading.validation.distinct [first, second] := by
  obtain ⟨n, x, rfl, roundedN, rfl⟩ := Value.check_plainNumber.mp left
  obtain ⟨m, y, rfl, roundedM, rfl⟩ := Value.check_plainNumber.mp right
  rw [startsWithEqualNumbers, ← Double.isEqual_eq]
  constructor
  · intro differ a b rest z w same roundedA roundedB
    simp only [List.cons.injEq, Value.atom.injEq, Atom.number.injEq] at same
    obtain ⟨rfl, rfl, _⟩ := same
    rw [roundedN, Option.some.injEq] at roundedA
    rw [roundedM, Option.some.injEq] at roundedB
    exact roundedA ▸ roundedB ▸ differ
  · intro differ
    exact differ n m [] x y rfl roundedN roundedM

theorem Form.eq_number_of_isPlainNumber {form : Form} (plain : form.isPlainNumber = true) :
    form = .number {} := by
  cases form with
  | number rule => simpa [isPlainNumber] using plain
  | _ => simp [isPlainNumber] at plain

theorem tuple_passes_iff {items : List Value} {positions : List Form} {distinct : Bool}
    (regular : (Form.tuple positions distinct).isRegular = true) :
    (∃ result, finishTuple positions.length items.length distinct
        (Value.checkPositions items positions) = .ok result) ↔
      (items.length = positions.length ∧
        (distinct = true → Reading.validation.distinct items)) ∧
        ∀ part ∈ positions.zip items, part.2.Passes part.1 := by
  rw [finishTuple_passes_iff]
  cases distinct with
  | false =>
      simp only [Bool.false_eq_true, false_implies, and_true, checkPositions_passes_iff]
      constructor
      · rintro ⟨fits, enough, passes⟩
        exact ⟨le_antisymm fits enough, passes⟩
      · rintro ⟨length, passes⟩
        exact ⟨length.le, length.ge, passes⟩
  | true =>
      simp only [Form.isRegular, Bool.not_true, Bool.false_or, Bool.and_eq_true, beq_iff_eq,
        List.all_eq_true] at regular
      obtain ⟨_, two, plain⟩ := regular
      obtain ⟨p, q, rfl⟩ := List.length_eq_two.mp two
      obtain rfl := Form.eq_number_of_isPlainNumber (plain p (by simp))
      obtain rfl := Form.eq_number_of_isPlainNumber (plain q (by simp))
      have compare {values : List Value} (length : items.length = 2)
          (same : Value.checkPositions items [.number {}, .number {}] = values.map .ok) :
          startsWithEqualNumbers values = false ↔ Reading.validation.distinct items := by
        obtain ⟨first, second, rfl⟩ := List.length_eq_two.mp length
        match values, same with
        | [checked, other], same =>
            simp only [Value.checkPositions, List.map_cons, List.cons.injEq] at same
            exact startsWithEqualNumbers_eq_false_iff same.1 same.2.1
        | [], same => simp [Value.checkPositions] at same
        | [_], same => simp [Value.checkPositions] at same
        | _ :: _ :: _ :: _, same => simp [Value.checkPositions] at same
      constructor
      · rintro ⟨fits, values, same, differ⟩
        obtain ⟨enough, passes⟩ := checkPositions_passes_iff.mp ⟨values, same⟩
        have length := le_antisymm fits enough
        exact ⟨⟨length, fun _ => (compare length same).mp (differ rfl)⟩, passes⟩
      · rintro ⟨⟨length, differ⟩, passes⟩
        obtain ⟨values, same⟩ := checkPositions_passes_iff.mpr ⟨length.ge, passes⟩
        exact ⟨length.le, values, same, fun _ => (compare length same).mpr (differ rfl)⟩

end AnimationGrammar
