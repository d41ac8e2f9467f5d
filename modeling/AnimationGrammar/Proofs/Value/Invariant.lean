import AnimationGrammar.Proofs.Value.Canonical
import Mathlib.Data.List.TakeWhile

/-!
The canonical text is a complete invariant of JSON values.

Two JSON values have one canonical text exactly when they are similar, so a list has duplicates exactly
when two of its items are similar.  A value that holds a number too long to be written has no text, and
similar values are alike in that.  So duplicates are found up to the first item without a text.
-/

namespace AnimationGrammar

namespace Value

theorem IsJson.canonicalText_eq_iff_similar {a b : Value} (first : a.IsJson) (second : b.IsJson) :
    a.canonicalText = b.canonicalText ↔ Similar a b := by
  rw [first.canonicalText_eq_iff second, first.isSimilar_iff second]

theorem Similar.symm {a b : Value} (similar : Similar a b) (first : a.IsJson) (second : b.IsJson) :
    Similar b a := by
  rw [← second.canonicalText_eq_iff_similar first]
  exact ((first.canonicalText_eq_iff_similar second).mpr similar).symm

theorem noDuplicates_iff {items : List Value} (each : ∀ item ∈ items, item.IsJson) :
    hasDuplicates items = false ↔ items.Pairwise fun a b => ¬ Similar a b := by
  rw [hasDuplicates_eq_false_iff each]
  refine List.Pairwise.iff_of_mem fun {a b} inFirst inSecond => ?_
  rw [← (each a inFirst).isSimilar_iff (each b inSecond), Bool.not_eq_true]

theorem hasDuplicates_iff {items : List Value} (each : ∀ item ∈ items, item.IsJson) :
    hasDuplicates items = true ↔ ∃ (i j : Nat) (a b : Value), i < j ∧ items[i]? = some a ∧
      items[j]? = some b ∧ Similar a b := by
  rw [← Bool.not_eq_false, noDuplicates_iff each, List.pairwise_iff_getElem]
  push Not
  constructor
  · rintro ⟨i, j, inFirst, inSecond, before, similar⟩
    exact ⟨i, j, _, _, before, List.getElem?_eq_getElem inFirst, List.getElem?_eq_getElem inSecond,
      similar⟩
  · rintro ⟨i, j, a, b, before, foundFirst, foundSecond, similar⟩
    obtain ⟨inFirst, rfl⟩ := List.getElem?_eq_some_iff.mp foundFirst
    obtain ⟨inSecond, rfl⟩ := List.getElem?_eq_some_iff.mp foundSecond
    exact ⟨i, j, inFirst, inSecond, before, similar⟩

/-! ### Numbers that are too long -/

theorem isLongNumber_of_rounded {n : Numeral} {x : Double} (rounded : n.toDouble? = some x) :
    (Atom.number n).isLongNumber = false := by
  cases n with
  | double value => rfl
  | integer value =>
      rw [Numeral.toDouble?, Double.ofInt?, Option.map_eq_some_iff] at rounded
      obtain ⟨magnitude, rounded, _⟩ := rounded
      have bound := (representable_iff.mp magnitude.representable).1
      have few : 1024 ≤ Atom.textDigits := by decide
      rw [Atom.isLongNumber, decide_eq_false_iff_not, not_le]
      generalize 1024 = places at bound few
      generalize Atom.textDigits = digits at few
      have small : value.natAbs < 2 ^ places := by
        by_contra large
        have scaled := Nat.mul_le_mul_right unitsPerOne (not_lt.mp large)
        rw [unitsPerOne_eq, ← Nat.pow_add, ← unitsPerOne_eq] at scaled
        exact absurd bound (Magnitude.pow_le_ofUnits? rounded scaled).not_gt
      calc value.natAbs < 2 ^ places := small
        _ ≤ 10 ^ places := Nat.pow_le_pow_left (by decide) places
        _ ≤ 10 ^ digits := Nat.pow_le_pow_right (by decide) few

theorem isLongNumber_of_double {value : ℤ} {x : Double}
    (equal : (Numeral.integer value).isEqual (.double x) = true) :
    (Atom.number (.integer value)).isLongNumber = false := by
  obtain ⟨y, rounded, _⟩ := Numeral.toDouble?_of_double (Numeral.place_of_isEqual equal)
  exact isLongNumber_of_rounded rounded

theorem isEqual_comm (a b : Numeral) : a.isEqual b = b.isEqual a := by
  rcases a with value | ⟨negative, magnitude⟩ | _ | _ <;>
    rcases b with other | ⟨sign, other⟩ | _ | _ <;>
    simp only [Numeral.isEqual, Numeral.exactUnits?, Double.isEqual] <;>
    generalize unitsPerOne = scale <;>
    simp [Bool.beq_comm]

theorem isLongNumber_eq {a b : Numeral} (equal : a.isEqual b = true) :
    (Atom.number a).isLongNumber = (Atom.number b).isLongNumber := by
  cases a with
  | integer value =>
      cases b with
      | integer other =>
          rw [Numeral.integer_place_inj.mp (Numeral.place_of_isEqual equal)]
      | double x =>
          rw [isLongNumber_of_double equal]
          rfl
  | double x =>
      cases b with
      | integer other =>
          rw [isEqual_comm] at equal
          rw [isLongNumber_of_double equal]
          rfl
      | double y => rfl

theorem anyLongNumber_eq (items : List Value) :
    anyLongNumber items = (items.map hasLongNumber).any id := by
  induction items with
  | nil => rfl
  | cons item rest inductionHypothesis =>
      rw [anyLongNumber, inductionHypothesis, List.map_cons, List.any_cons, id]

theorem anyLongEntry_eq (entries : List (Atom × Value)) : anyLongEntry entries =
    entries.any fun entry => entry.1.isLongNumber || entry.2.hasLongNumber := by
  induction entries with
  | nil => rfl
  | cons entry rest inductionHypothesis =>
      rcases entry with ⟨key, value⟩
      rw [anyLongEntry, inductionHypothesis, List.any_cons]

theorem hasLongNumber_list {items : List Value}
    (each : ∀ item ∈ items, item.hasLongNumber = false) :
    (Value.list items).hasLongNumber = false := by
  rw [hasLongNumber, anyLongNumber_eq, List.any_eq_false, List.forall_mem_map]
  intro item membership
  rw [id, each item membership]
  exact Bool.false_ne_true

theorem hasLongNumber_mapping {entries : List (Atom × Value)}
    (each : ∀ entry ∈ entries, (∃ name, entry.1.asText = .text name) ∧ entry.2.hasLongNumber = false) :
    (Value.mapping entries).hasLongNumber = false := by
  rw [hasLongNumber, anyLongEntry_eq, List.any_eq_false]
  intro entry membership
  obtain ⟨⟨name, isText⟩, short⟩ := each entry membership
  rw [Atom.isLongNumber_of_asText isText, short]
  exact Bool.false_ne_true

/-- A number in a JSON object is too long when one under a key is. -/
theorem IsJson.hasLongNumber_iff {entries : List (Atom × Value)}
    (json : (Value.mapping entries).IsJson) : (Value.mapping entries).hasLongNumber = true ↔
      ∃ name value, lookupText name entries = some value ∧ value.hasLongNumber = true := by
  rw [hasLongNumber, anyLongEntry_eq, List.any_eq_true]
  constructor
  · rintro ⟨⟨key, value⟩, membership, long⟩
    obtain ⟨name, rfl⟩ := json.key membership
    rw [Atom.isLongNumber, Bool.false_or] at long
    · exact ⟨name, value, (lookupText_eq_some_iff json.keysDiffer).mpr membership, long⟩
    · simp
  · rintro ⟨name, value, given, long⟩
    exact ⟨_, lookupText_eq_some_mem given, by rw [long, Bool.or_true]⟩

theorem hasLongNumber_of_entries {xs ys : List (Atom × Value)} (first : (Value.mapping xs).IsJson)
    (second : (Value.mapping ys).IsJson)
    (sameKeys : ∀ name, (lookupText name xs).isSome = (lookupText name ys).isSome)
    (each : ∀ name x y, lookupText name xs = some x → lookupText name ys = some y →
      x.hasLongNumber = y.hasLongNumber) (long : (Value.mapping xs).hasLongNumber = true) :
    (Value.mapping ys).hasLongNumber = true := by
  obtain ⟨name, x, inXs, long⟩ := first.hasLongNumber_iff.mp long
  have given := sameKeys name
  rw [inXs, Option.isSome_some, eq_comm, Option.isSome_iff_exists] at given
  obtain ⟨y, inYs⟩ := given
  exact second.hasLongNumber_iff.mpr ⟨name, y, inYs, each name x y inXs inYs ▸ long⟩

theorem Similar.hasLongNumber_eq {a b : Value} (similar : Similar a b) (first : a.IsJson)
    (second : b.IsJson) : a.hasLongNumber = b.hasLongNumber := by
  induction similar with
  | null => rfl
  | boolean value => rfl
  | number equal => exact isLongNumber_eq equal
  | text content => rfl
  | @list xs ys sameLength _ inductionHypothesis =>
      have same : xs.map hasLongNumber = ys.map hasLongNumber := by
        refine map_eq_map_iff_zip.mpr ⟨sameLength, fun pair paired => ?_⟩
        obtain ⟨inXs, inYs⟩ := List.of_mem_zip paired
        exact inductionHypothesis pair paired (first.item inXs) (second.item inYs)
      rw [hasLongNumber, hasLongNumber, anyLongNumber_eq, anyLongNumber_eq, same]
  | @object xs ys sameKeys _ inductionHypothesis =>
      have each (name : String) (x y : Value) (inXs : lookupText name xs = some x)
          (inYs : lookupText name ys = some y) : x.hasLongNumber = y.hasLongNumber :=
        inductionHypothesis name x y inXs inYs (first.entry (lookupText_eq_some_mem inXs))
          (second.entry (lookupText_eq_some_mem inYs))
      rw [Bool.eq_iff_iff]
      constructor
      · exact hasLongNumber_of_entries first second sameKeys each
      · apply hasLongNumber_of_entries second first fun name => (sameKeys name).symm
        exact fun name x y inXs inYs => (each name y x inYs inXs).symm

/-! ### Texts that can be written -/

theorem canonicalJson_of_short {value : Value} (short : value.hasLongNumber = false) :
    value.canonicalJson = .ok value.canonicalText := by
  simp [canonicalJson, short]

theorem canonicalJson_of_long {value : Value} (long : value.hasLongNumber = true) :
    value.canonicalJson = .error .numberTooLong := by
  simp [canonicalJson, long]

/-- The items before the first that has no text. -/
def comparable (items : List Value) : List Value := items.takeWhile fun item => !item.hasLongNumber

/-- What is found among some items depends on those before the first that has no text. -/
theorem findDuplicatesAfter_eq {items : List Value} {seen : List String} (differ : seen.Nodup) :
    findDuplicatesAfter seen items =
      if repeats (canonicalTexts (comparable items) ++ seen) then .ok true
      else if items.any hasLongNumber then .error .numberTooLong else .ok false := by
  have apart := repeats_eq_false_iff.mpr differ
  induction items generalizing seen with
  | nil => simp [findDuplicatesAfter, comparable, canonicalTexts, apart]
  | cons item rest inductionHypothesis =>
      rw [findDuplicatesAfter]
      cases length : item.hasLongNumber with
      | true => simp [canonicalJson_of_long length, comparable, length, canonicalTexts, apart]
      | false =>
          have first : comparable (item :: rest) = item :: comparable rest := by
            simp [comparable, length]
          have moved : repeats (canonicalTexts (item :: comparable rest) ++ seen) =
              repeats (canonicalTexts (comparable rest) ++ item.canonicalText :: seen) := by
            rw [Bool.eq_iff_iff, ← Bool.not_eq_false, ← Bool.not_eq_false (repeats _),
              repeats_eq_false_iff, repeats_eq_false_iff, canonicalTexts, List.cons_append,
              List.perm_middle.nodup_iff]
          simp only [canonicalJson_of_short length, first, List.any_cons, length, Bool.false_or]
          by_cases before : item.canonicalText ∈ seen
          · have again : repeats (canonicalTexts (item :: comparable rest) ++ seen) = true := by
              simp [canonicalTexts, repeats, before]
            rw [if_pos before, if_pos again]
          · have differToo := List.nodup_cons.mpr ⟨before, differ⟩
            rw [if_neg before, moved,
              inductionHypothesis differToo (repeats_eq_false_iff.mpr differToo)]

theorem findDuplicates_eq (items : List Value) : findDuplicates items =
    if hasDuplicates (comparable items) then .ok true
    else if items.any hasLongNumber then .error .numberTooLong else .ok false := by
  rw [findDuplicates, findDuplicatesAfter_eq List.nodup_nil, List.append_nil, hasDuplicates]

theorem findDuplicates_of_short {items : List Value}
    (short : ∀ item ∈ items, item.hasLongNumber = false) :
    findDuplicates items = .ok (hasDuplicates items) := by
  have all : comparable items = items := by
    rw [comparable, List.takeWhile_eq_self_iff]
    intro item membership
    simp [short item membership]
  have none : items.any hasLongNumber = false := by simpa using short
  rw [findDuplicates_eq, all, none]
  cases hasDuplicates items <;> rfl

theorem findDuplicates_eq_false_iff {items : List Value} :
    findDuplicates items = .ok false ↔
      hasDuplicates items = false ∧ ∀ item ∈ items, item.hasLongNumber = false := by
  by_cases short : ∀ item ∈ items, item.hasLongNumber = false
  · rw [findDuplicates_of_short short, Except.ok.injEq, and_iff_left short]
  · have some : items.any hasLongNumber = true := by simpa using short
    simp only [findDuplicates_eq, some, short, and_false, iff_false]
    split <;> simp

theorem getElem?_comparable_iff {items : List Value} {index : Nat} {item : Value} :
    (comparable items)[index]? = some item ↔ items[index]? = some item ∧
      ∀ other ∈ items.take (index + 1), other.hasLongNumber = false := by
  induction items generalizing index with
  | nil => simp [comparable]
  | cons first rest inductionHypothesis =>
      rw [comparable, List.takeWhile_cons]
      cases length : first.hasLongNumber with
      | true => simp [length]
      | false =>
          cases index with
          | zero => simp +contextual [length]
          | succ index =>
              have later := @inductionHypothesis index
              rw [comparable] at later
              simp [length, later]

theorem findDuplicates_eq_true_iff {items : List Value} (each : ∀ item ∈ items, item.IsJson) :
    findDuplicates items = .ok true ↔ ∃ (i j : Nat) (a b : Value), i < j ∧ items[i]? = some a ∧
      items[j]? = some b ∧ Similar a b ∧
        ∀ item ∈ items.take (j + 1), item.hasLongNumber = false := by
  have inItems : ∀ item ∈ comparable items, item.IsJson :=
    fun item membership => each item ((List.takeWhile_prefix _).subset membership)
  have found : findDuplicates items = .ok true ↔ hasDuplicates (comparable items) = true := by
    rw [findDuplicates_eq]
    cases hasDuplicates (comparable items) <;> cases items.any hasLongNumber <;> simp
  rw [found, hasDuplicates_iff inItems]
  refine exists_congr fun i => exists_congr fun j => exists_congr fun a => exists_congr fun b =>
    and_congr_right fun before => ?_
  rw [getElem?_comparable_iff, getElem?_comparable_iff]
  constructor
  · rintro ⟨⟨atFirst, _⟩, ⟨atSecond, short⟩, similar⟩
    exact ⟨atFirst, atSecond, similar, short⟩
  · rintro ⟨atFirst, atSecond, similar, short⟩
    have earlier : items.take (i + 1) ⊆ items.take (j + 1) :=
      (List.take_prefix_take_left (Nat.succ_le_succ before.le)).subset
    exact ⟨⟨atFirst, fun item membership => short item (earlier membership)⟩, ⟨atSecond, short⟩,
      similar⟩

theorem findDuplicates_eq_error_iff {items : List Value} (each : ∀ item ∈ items, item.IsJson) :
    findDuplicates items = .error .numberTooLong ↔ ∃ before item after,
      items = before ++ item :: after ∧ item.hasLongNumber = true ∧
        before.Pairwise fun a b => ¬ Similar a b := by
  have inItems : ∀ item ∈ comparable items, item.IsJson :=
    fun item membership => each item ((List.takeWhile_prefix _).subset membership)
  have found : findDuplicates items = .error .numberTooLong ↔
      hasDuplicates (comparable items) = false ∧ items.any hasLongNumber = true := by
    rw [findDuplicates_eq]
    cases hasDuplicates (comparable items) <;> cases items.any hasLongNumber <;> simp
  rw [found, noDuplicates_iff inItems]
  constructor
  · rintro ⟨apart, long⟩
    have more : items.dropWhile (fun item => !item.hasLongNumber) ≠ [] := by
      rw [Ne, List.dropWhile_eq_nil_iff]
      simpa using long
    obtain ⟨item, after, rest⟩ := List.exists_cons_of_ne_nil more
    refine ⟨comparable items, item, after, ?_, ?_, apart⟩
    · rw [← rest, comparable, List.takeWhile_append_dropWhile]
    · have first := List.head_dropWhile_not (fun item : Value => !item.hasLongNumber) more
      simpa [rest] using first
  · rintro ⟨before, item, after, rfl, long, apart⟩
    refine ⟨apart.sublist ?_, by simp [long]⟩
    rw [comparable, List.takeWhile_append]
    split
    · simp [long]
    · exact (List.takeWhile_prefix _).sublist

/-- Two JSON values without numbers that are too long have one canonical text exactly when they are
similar, and a value with such a number has none.  An item that is similar to one before it is found
exactly when all items up to it have texts, and the search ends with an item that has none exactly when
those before it differ. -/
theorem canonicalJson_isComplete :
    (∀ a b : Value, a.IsJson → b.IsJson → a.hasLongNumber = false → b.hasLongNumber = false →
      ∃ first second, a.canonicalJson = .ok first ∧ b.canonicalJson = .ok second ∧
        (first = second ↔ Similar a b)) ∧
    (∀ value : Value, value.hasLongNumber = true → value.canonicalJson = .error .numberTooLong) ∧
    ∀ items : List Value, (∀ item ∈ items, item.IsJson) →
      (findDuplicates items = .ok true ↔ ∃ (i j : Nat) (a b : Value), i < j ∧ items[i]? = some a ∧
        items[j]? = some b ∧ Similar a b ∧
          ∀ item ∈ items.take (j + 1), item.hasLongNumber = false) ∧
      (findDuplicates items = .ok false ↔ (items.Pairwise fun a b => ¬ Similar a b) ∧
        ∀ item ∈ items, item.hasLongNumber = false) ∧
      (findDuplicates items = .error .numberTooLong ↔ ∃ before item after,
        items = before ++ item :: after ∧ item.hasLongNumber = true ∧
          before.Pairwise fun a b => ¬ Similar a b) := by
  refine ⟨?_, fun _ long => canonicalJson_of_long long, fun items each => ?_⟩
  · intro a b first second short shortToo
    exact ⟨_, _, canonicalJson_of_short short, canonicalJson_of_short shortToo,
      first.canonicalText_eq_iff_similar second⟩
  · refine ⟨findDuplicates_eq_true_iff each, ?_, findDuplicates_eq_error_iff each⟩
    rw [findDuplicates_eq_false_iff, noDuplicates_iff each]

def integerObject : Value :=
  .object [("a", .integer 1), ("b", .list [.integer 1, .boolean true])]

def doubleObject : Value :=
  .object [("b", .list [.double (.ofUnits false unitsPerOne 1), .boolean true]),
    ("a", .double (.ofUnits false unitsPerOne 1))]

def longInteger : Value := .integer (10 ^ 4300)

theorem canonicalJson_doubleObject :
    Similar integerObject doubleObject ∧
      (∃ text, integerObject.canonicalJson = .ok text ∧ doubleObject.canonicalJson = .ok text) ∧
      findDuplicates [integerObject, doubleObject, longInteger] = .ok true ∧
      findDuplicates [integerObject, longInteger, doubleObject] = .error .numberTooLong := by
  have first : integerObject.IsJson := by decide
  have second : doubleObject.IsJson := by decide +kernel
  have short : integerObject.hasLongNumber = false := by decide +kernel
  have shortToo : doubleObject.hasLongNumber = false := by decide +kernel
  have long : longInteger.hasLongNumber = true := by decide +kernel
  have similar : Similar integerObject doubleObject :=
    (first.isSimilar_iff second).mp (by decide +kernel)
  obtain ⟨invariant, _, duplicates⟩ := canonicalJson_isComplete
  obtain ⟨text, textToo, written, writtenToo, same⟩ := invariant _ _ first second short shortToo
  have longIsJson : longInteger.IsJson := by decide
  refine ⟨similar, ⟨text, written, same.mpr similar ▸ writtenToo⟩, ?_, ?_⟩
  · refine (duplicates _ (by simp [first, second, longIsJson])).1.mpr
      ⟨0, 1, _, _, Nat.one_pos, rfl, rfl, similar, ?_⟩
    simp [short, shortToo]
  · exact (duplicates _ (by simp [first, second, longIsJson])).2.2.mpr
      ⟨[integerObject], longInteger, [doubleObject], rfl, long, List.pairwise_singleton _ _⟩

/-- An integer of too many digits is similar to itself and has no text, so it is not found to repeat. -/
theorem not_canonicalJson_longInteger :
    longInteger.IsJson ∧ Similar longInteger longInteger ∧
      (¬ ∃ text, longInteger.canonicalJson = .ok text) ∧
      findDuplicates [longInteger, longInteger] ≠ .ok true := by
  have long : longInteger.hasLongNumber = true := by decide +kernel
  refine ⟨by decide, .number (by decide +kernel), ?_, by decide +kernel⟩
  rintro ⟨text, written⟩
  simp [canonicalJson_of_long long] at written

end Value

end AnimationGrammar
