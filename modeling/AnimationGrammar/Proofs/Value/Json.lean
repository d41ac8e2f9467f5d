import AnimationGrammar.Value.Basic
import AnimationGrammar.Proofs.Number.Order
import Mathlib.Data.List.Nodup
import Mathlib.Tactic.Common

/-!
The values that a document written as JSON holds.

`Value.IsPartOf` reaches every value inside of another one.  Conditions on a whole document are
conditions on all of its parts, and `Value.IsJson` is the first of them: it rules out what only other
notations or validation itself can make.
-/

namespace AnimationGrammar

namespace Atom

@[simp] theorem asText_text (content : String) : (text content).asText = text content := rfl

@[simp] theorem asText_asText (a : Atom) : a.asText.asText = a.asText := by
  cases a with
  | bytes content => cases decoded : Utf8.decode content <;> simp [asText, decoded]
  | _ => rfl

theorem isLongNumber_of_asText {a : Atom} {name : String} (isText : a.asText = text name) :
    a.isLongNumber = false := by
  cases a with
  | number n => cases isText
  | _ => rfl

end Atom

namespace Value

/-- The value itself, and the values inside of it. -/
inductive IsPartOf : Value → Value → Prop
  | self {value} : IsPartOf value value
  | item {part item items} :
      item ∈ items → IsPartOf part item → IsPartOf part (.list items)
  | entry {part entry entries} :
      entry ∈ entries → IsPartOf part entry.2 → IsPartOf part (.mapping entries)

/-- A place of a JSON document, apart from what lies inside of it. -/
def IsJsonNode : Value → Prop
  | .atom (.time _) => False
  | .atom (.bytes _) => False
  | .atom (.number n) => n.IsOrdered
  | .atom _ => True
  | .list _ => True
  | .mapping entries =>
      (∀ entry ∈ entries, ∃ name, entry.1 = .text name) ∧ (entries.map Prod.fst).Nodup
  | .tuple _ => False
  | .record _ _ => False

/-- A value that JSON can write: its keys are texts, and no key is given twice. -/
def IsJson (value : Value) : Prop := ∀ part, IsPartOf part value → part.IsJsonNode

theorem IsPartOf.trans {inner middle outer : Value}
    (first : IsPartOf inner middle) (second : IsPartOf middle outer) : IsPartOf inner outer := by
  induction second with
  | self => exact first
  | item membership _ inductionHypothesis => exact .item membership inductionHypothesis
  | entry membership _ inductionHypothesis => exact .entry membership inductionHypothesis

theorem IsJson.part {part value : Value} (json : value.IsJson) (inside : IsPartOf part value) :
    part.IsJson :=
  fun inner reached => json inner (reached.trans inside)

theorem IsJson.node {value : Value} (json : value.IsJson) : value.IsJsonNode := json value .self

theorem IsJson.item {items : List Value} {item : Value} (json : (Value.list items).IsJson)
    (membership : item ∈ items) : item.IsJson :=
  json.part (.item membership .self)

theorem IsJson.entry {entries : List (Atom × Value)} {entry : Atom × Value}
    (json : (Value.mapping entries).IsJson) (membership : entry ∈ entries) : entry.2.IsJson :=
  json.part (.entry membership .self)

theorem IsJson.key {entries : List (Atom × Value)} {entry : Atom × Value}
    (json : (Value.mapping entries).IsJson) (membership : entry ∈ entries) :
    ∃ name, entry.1 = .text name :=
  json.node.1 entry membership

theorem IsJson.key_asText {entries : List (Atom × Value)} {entry : Atom × Value}
    (json : (Value.mapping entries).IsJson) (membership : entry ∈ entries) :
    ∃ name, entry.1.asText = .text name := by
  obtain ⟨name, named⟩ := json.key membership
  exact ⟨name, by rw [named, Atom.asText_text]⟩

theorem IsJson.keysDiffer {entries : List (Atom × Value)}
    (json : (Value.mapping entries).IsJson) : (entries.map Prod.fst).Nodup :=
  json.node.2

theorem IsJson.sublist {entries kept : List (Atom × Value)} (json : (Value.mapping entries).IsJson)
    (sublist : kept.Sublist entries) : (Value.mapping kept).IsJson := by
  intro part inside
  cases inside with
  | self =>
      exact ⟨fun entry membership => json.key (sublist.subset membership),
        json.keysDiffer.sublist (sublist.map Prod.fst)⟩
  | entry membership reached => exact json part (.entry (sublist.subset membership) reached)

theorem isJson_text (content : String) : (Value.text content).IsJson := by
  intro part inside
  cases inside
  trivial

theorem not_isJson_tuple (items : List Value) : ¬ (Value.tuple items).IsJson :=
  fun json => json.node

theorem not_isJson_record (model : ModelName) (fields : List (String × Value)) :
    ¬ (Value.record model fields).IsJson :=
  fun json => json.node

/-- Whether a value has been validated as an object. -/
def isRecord : Value → Bool
  | .record _ _ => true
  | _ => false

theorem IsJson.isRecord_eq_false {value : Value} (json : value.IsJson) : value.isRecord = false := by
  cases value with
  | record model fields => exact absurd json (not_isJson_record model fields)
  | atom | list | tuple | mapping => rfl

/-- Values are taken apart one layer at a time, down to atoms and records. -/
theorem layerInduction {motive : Value → Prop} (atom : ∀ a, motive (.atom a))
    (list : ∀ items, (∀ item ∈ items, motive item) → motive (.list items))
    (tuple : ∀ items, (∀ item ∈ items, motive item) → motive (.tuple items))
    (mapping : ∀ entries, (∀ entry ∈ entries, motive entry.2) → motive (.mapping entries))
    (record : ∀ model fields, motive (.record model fields)) (value : Value) : motive value := by
  match value with
  | .atom a => exact atom a
  | .list items =>
      exact list items fun item membership => layerInduction atom list tuple mapping record item
  | .tuple items =>
      exact tuple items fun item membership => layerInduction atom list tuple mapping record item
  | .mapping entries =>
      exact mapping entries fun entry membership =>
        layerInduction atom list tuple mapping record entry.2
  | .record model fields => exact record model fields
termination_by sizeOf value
decreasing_by
  · have smaller := List.sizeOf_lt_of_mem membership
    simp only [Value.list.sizeOf_spec]
    omega
  · have smaller := List.sizeOf_lt_of_mem membership
    simp only [Value.tuple.sizeOf_spec]
    omega
  · have smaller := List.sizeOf_lt_of_mem membership
    rcases entry with ⟨key, inner⟩
    simp only [Value.mapping.sizeOf_spec, Prod.mk.sizeOf_spec] at smaller ⊢
    omega

/-- In a JSON document there are only atoms, lists and objects. -/
theorem jsonInduction {motive : (value : Value) → value.IsJson → Prop}
    (atom : ∀ a json, motive (.atom a) json)
    (list : ∀ items (json : (Value.list items).IsJson),
      (∀ item (membership : item ∈ items), motive item (json.item membership)) →
      motive (.list items) json)
    (mapping : ∀ entries (json : (Value.mapping entries).IsJson),
      (∀ entry (membership : entry ∈ entries), motive entry.2 (json.entry membership)) →
      motive (.mapping entries) json)
    (value : Value) (json : value.IsJson) : motive value json := by
  induction value using layerInduction with
  | atom a => exact atom a json
  | list items inductionHypothesis =>
      exact list items json fun item membership => inductionHypothesis item membership _
  | tuple items => exact absurd json (not_isJson_tuple items)
  | mapping entries inductionHypothesis =>
      exact mapping entries json fun entry membership => inductionHypothesis entry membership _
  | record model fields => exact absurd json (not_isJson_record model fields)

theorem jsonCases {motive : (value : Value) → value.IsJson → Prop}
    (atom : ∀ a json, motive (.atom a) json) (list : ∀ items json, motive (.list items) json)
    (mapping : ∀ entries json, motive (.mapping entries) json) (value : Value)
    (json : value.IsJson) : motive value json :=
  jsonInduction atom (fun items json _ => list items json) (fun entries json _ => mapping entries json)
    value json

end Value

/-! ### Checking every part -/

namespace Value

mutual

def everyPart (property : Value → Bool) : Value → Bool
  | .list items => property (.list items) && everyItem property items
  | .mapping entries => property (.mapping entries) && everyEntry property entries
  | .atom a => property (.atom a)
  | .tuple items => property (.tuple items)
  | .record model fields => property (.record model fields)

def everyItem (property : Value → Bool) : List Value → Bool
  | [] => true
  | item :: rest => item.everyPart property && everyItem property rest

def everyEntry (property : Value → Bool) : List (Atom × Value) → Bool
  | [] => true
  | (_, value) :: rest => value.everyPart property && everyEntry property rest

end

theorem holds_iff_of_alone {property : Value → Bool} {value : Value}
    (alone : ∀ part, IsPartOf part value → part = value) :
    property value = true ↔ ∀ part, IsPartOf part value → property part = true := by
  constructor
  · intro holds part inside
    rw [alone part inside]
    exact holds
  · intro holds
    exact holds value .self

mutual

theorem everyPart_iff {property : Value → Bool} : ∀ value : Value,
    value.everyPart property = true ↔ ∀ part, IsPartOf part value → property part = true
  | .atom a => by
      rw [everyPart]
      exact holds_iff_of_alone (by rintro _ ⟨⟩; rfl)
  | .tuple items => by
      rw [everyPart]
      exact holds_iff_of_alone (by rintro _ ⟨⟩; rfl)
  | .record model fields => by
      rw [everyPart]
      exact holds_iff_of_alone (by rintro _ ⟨⟩; rfl)
  | .list items => by
      rw [everyPart, Bool.and_eq_true, everyItem_iff items]
      constructor
      · rintro ⟨here, inside⟩ part (_ | ⟨membership, reached⟩)
        · exact here
        · exact inside _ membership part reached
      · intro holds
        exact ⟨holds _ .self, fun item membership part reached =>
          holds part (.item membership reached)⟩
  | .mapping entries => by
      rw [everyPart, Bool.and_eq_true, everyEntry_iff entries]
      constructor
      · rintro ⟨here, inside⟩ part (_ | _ | ⟨membership, reached⟩)
        · exact here
        · exact inside _ membership part reached
      · intro holds
        exact ⟨holds _ .self, fun entry membership part reached =>
          holds part (.entry membership reached)⟩

theorem everyItem_iff {property : Value → Bool} : ∀ items : List Value,
    everyItem property items = true ↔
      ∀ item ∈ items, ∀ part, IsPartOf part item → property part = true
  | [] => by simp [everyItem]
  | item :: rest => by
      rw [everyItem, Bool.and_eq_true, everyPart_iff item, everyItem_iff rest, List.forall_mem_cons]

theorem everyEntry_iff {property : Value → Bool} : ∀ entries : List (Atom × Value),
    everyEntry property entries = true ↔
      ∀ entry ∈ entries, ∀ part, IsPartOf part entry.2 → property part = true
  | [] => by simp [everyEntry]
  | (key, value) :: rest => by
      rw [everyEntry, Bool.and_eq_true, everyPart_iff value, everyEntry_iff rest,
        List.forall_mem_cons]

end

instance decidableEveryPart (property : Value → Prop) [DecidablePred property] (value : Value) :
    Decidable (∀ part, IsPartOf part value → property part) :=
  decidable_of_iff (value.everyPart fun part => decide (property part)) (by simp [everyPart_iff])

instance decidableIsText (a : Atom) : Decidable (∃ name, a = .text name) :=
  match a with
  | .text name => .isTrue ⟨name, rfl⟩
  | .null => .isFalse (by simp)
  | .boolean _ => .isFalse (by simp)
  | .number _ => .isFalse (by simp)
  | .time _ => .isFalse (by simp)
  | .bytes _ => .isFalse (by simp)

instance decidableIsJsonNode : DecidablePred IsJsonNode
  | .atom (.time _) => .isFalse id
  | .atom (.bytes _) => .isFalse id
  | .atom (.number n) => inferInstanceAs (Decidable (n ≠ .double .notANumber))
  | .atom .null => .isTrue trivial
  | .atom (.boolean _) => .isTrue trivial
  | .atom (.text _) => .isTrue trivial
  | .list _ => .isTrue trivial
  | .mapping entries => inferInstanceAs (Decidable
      ((∀ entry ∈ entries, ∃ name, entry.1 = .text name) ∧ (entries.map Prod.fst).Nodup))
  | .tuple _ => .isFalse id
  | .record _ _ => .isFalse id

instance decidableIsJson (value : Value) : Decidable value.IsJson :=
  inferInstanceAs (Decidable (∀ part, IsPartOf part value → part.IsJsonNode))

end Value

/-! ### Entries under text keys -/

theorem lookupText_eq_some_mem {α : Type} {name : String} {entries : List (Atom × α)} {found : α}
    (looked : lookupText name entries = some found) : (.text name, found) ∈ entries := by
  induction entries with
  | nil => simp [lookupText] at looked
  | cons entry rest inductionHypothesis =>
      rcases entry with ⟨key, value⟩
      by_cases same : key = .text name
      · simp only [lookupText, same, if_true, Option.some.injEq] at looked
        simp [same, looked]
      · simp only [lookupText, same, if_false] at looked
        exact List.mem_cons_of_mem _ (inductionHypothesis looked)

theorem lookupText_eq_none_iff {α : Type} {name : String} {entries : List (Atom × α)} :
    lookupText name entries = none ↔ ∀ entry ∈ entries, entry.1 ≠ .text name := by
  induction entries with
  | nil => simp [lookupText]
  | cons entry rest inductionHypothesis =>
      rcases entry with ⟨key, value⟩
      by_cases same : key = .text name <;> simp [lookupText, same, inductionHypothesis]

theorem lookupText_append {α : Type} (name : String) (xs ys : List (Atom × α)) :
    lookupText name (xs ++ ys) = (lookupText name xs).or (lookupText name ys) := by
  induction xs with
  | nil => rfl
  | cons entry rest inductionHypothesis =>
      rcases entry with ⟨key, value⟩
      by_cases same : key = .text name <;> simp [lookupText, same, inductionHypothesis]

theorem Value.IsJson.get? {value inner : Value} (json : value.IsJson) {name : String}
    (given : value.get? name = some inner) : inner.IsJson := by
  cases value with
  | mapping entries => exact json.entry (lookupText_eq_some_mem given)
  | record model fields => exact absurd json (not_isJson_record model fields)
  | atom | list | tuple => simp [Value.get?] at given

theorem lookupText_eq_some_iff {α : Type} {name : String} {entries : List (Atom × α)}
    (keysDiffer : (entries.map Prod.fst).Nodup) {found : α} :
    lookupText name entries = some found ↔ (.text name, found) ∈ entries := by
  refine ⟨lookupText_eq_some_mem, fun membership => ?_⟩
  induction entries with
  | nil => simp at membership
  | cons entry rest inductionHypothesis =>
      rcases entry with ⟨key, value⟩
      simp only [List.map_cons, List.nodup_cons] at keysDiffer
      rcases List.mem_cons.mp membership with equality | inRest
      · simp only [Prod.mk.injEq] at equality
        simp [lookupText, ← equality.1, equality.2]
      · have fresh : key ≠ .text name := by
          rintro rfl
          exact keysDiffer.1 (List.mem_map.mpr ⟨_, inRest, rfl⟩)
        simp only [lookupText, fresh, if_false]
        exact inductionHypothesis keysDiffer.2 inRest

/-! ### Members under names -/

section
variable {κ α : Type} [BEq κ] [LawfulBEq κ] {name : κ} {members : List (κ × α)} {found : α}

theorem lookup_eq_some_mem (looked : members.lookup name = some found) :
    (name, found) ∈ members := by
  obtain ⟨before, after, split, _⟩ := List.lookup_eq_some_iff.mp looked
  simp [split]

theorem lookup_eq_some_iff_mem (namesDiffer : (members.map Prod.fst).Nodup) :
    members.lookup name = some found ↔ (name, found) ∈ members := by
  refine ⟨lookup_eq_some_mem, fun membership => ?_⟩
  obtain ⟨before, after, split⟩ := List.append_of_mem membership
  refine List.lookup_eq_some_iff.mpr ⟨before, after, split, fun earlier inBefore => ?_⟩
  simp only [bne_iff_ne, ne_eq]
  intro same
  rw [split, List.map_append, List.map_cons] at namesDiffer
  exact List.disjoint_of_nodup_append namesDiffer
    (List.mem_map.mpr ⟨earlier, inBefore, same.symm⟩) List.mem_cons_self

end

theorem names_filterMap_sublist {α β κ : Type} {pick : α → Option (κ × β)} {name : α → κ}
    (named : ∀ a member, pick a = some member → member.1 = name a) (items : List α) :
    ((items.filterMap pick).map Prod.fst).Sublist (items.map name) := by
  induction items with
  | nil => exact .slnil
  | cons item rest inductionHypothesis =>
      rw [List.filterMap_cons, List.map_cons]
      cases picked : pick item with
      | none => exact inductionHypothesis.cons _
      | some member =>
          rw [List.map_cons, named item member picked]
          exact inductionHypothesis.cons_cons _

end AnimationGrammar
