import AnimationGrammar.Proofs.Text.Written
import AnimationGrammar.Proofs.Value.Similar
import Mathlib.Data.List.Perm.Subperm

/-!
Canonical texts tell JSON values apart.

The canonical text of a value is a written text, so its parts are found in it again; and what it
starts with tells the kind of the value.  Two JSON values therefore have one canonical text exactly
when they are similar.
-/

namespace AnimationGrammar

theorem canonicalList_toList (items : List String) :
    (canonicalList items).toList = '[' :: ([','].intercalate (items.map String.toList) ++ [']']) := by
  simp [canonicalList, String.toList_intercalate]

def writtenMembers (members : List (String × String)) : List (String × List Char) :=
  (sortByName members).map fun member => (member.1, member.2.toList)

theorem canonicalObject_toList (members : List (String × String)) :
    (canonicalObject members).toList =
      '\x7b' :: ([','].intercalate
        ((writtenMembers members).map fun member => memberText member.1 member.2) ++ ['\x7d']) := by
  simp [canonicalObject, String.toList_intercalate, writtenMembers, memberText, Function.comp_def]

theorem written_canonicalList {items : List String} (each : ∀ item ∈ items, Written item.toList) :
    Written (canonicalList items).toList := by
  rw [canonicalList_toList]
  refine .list fun text membership => ?_
  obtain ⟨item, inItems, rfl⟩ := List.mem_map.mp membership
  exact each item inItems

theorem written_writtenMembers {members : List (String × String)}
    (each : ∀ member ∈ members, Written member.2.toList) :
    ∀ member ∈ writtenMembers members, Written member.2 := by
  intro member membership
  obtain ⟨original, sorted, rfl⟩ := List.mem_map.mp membership
  exact each original (List.mem_mergeSort.mp sorted)

theorem written_canonicalObject {members : List (String × String)}
    (each : ∀ member ∈ members, Written member.2.toList) :
    Written (canonicalObject members).toList := by
  rw [canonicalObject_toList]
  exact .object (written_writtenMembers each)

theorem written_word {text : String} (given : text.toList ≠ [])
    (plain : (text.toList.all fun c => !(c ∈ structureChars)) = true) : Written text.toList := by
  rw [List.all_eq_true] at plain
  exact .word given fun c membership => by simpa using plain c membership

theorem IsNumberText.plain {text : List Char} (number : IsNumberText text) :
    ∀ c ∈ text, c ∉ structureChars := by
  have digits : (structureChars.all fun c => !c.isDigit) = true := by decide
  have signs : (numberSigns.all fun c => !(c ∈ structureChars)) = true := by decide
  rw [List.all_eq_true] at digits signs
  intro c membership structural
  rcases number c membership with digit | sign
  · simpa [digit] using digits c structural
  · simpa [structural] using signs c sign

theorem Numeral.canonicalText_ne_nil (n : Numeral) : n.canonicalText.toList ≠ [] := by
  by_cases ordered : n.IsOrdered
  · obtain ⟨c, rest, text, _⟩ := canonicalText_head ordered
    simp [text]
  · rw [not_not.mp ordered]
    decide

theorem Atom.written_canonicalText (a : Atom) : Written a.canonicalText.toList := by
  cases a with
  | null => exact written_word (by decide) (by decide)
  | boolean value => cases value <;> exact written_word (by decide) (by decide)
  | number value => exact .word value.canonicalText_ne_nil value.isNumberText.plain
  | text content => exact .quoted content
  | time moment => exact .quoted _
  | bytes content => exact .quoted _

namespace Value

theorem canonicalTexts_eq (items : List Value) :
    canonicalTexts items = items.map canonicalText := by
  induction items with
  | nil => rfl
  | cons item rest inductionHypothesis => rw [canonicalTexts, inductionHypothesis, List.map_cons]

theorem canonicalEntries_eq (entries : List (Atom × Value)) :
    canonicalEntries entries =
      entries.map fun entry => (entry.1.keyText, entry.2.canonicalText) := by
  induction entries with
  | nil => rfl
  | cons entry rest inductionHypothesis =>
      rcases entry with ⟨key, value⟩
      rw [canonicalEntries, inductionHypothesis, List.map_cons]

mutual

/-- Every canonical text is a written text. -/
theorem written_canonicalText : ∀ value : Value, Written value.canonicalText.toList
  | .atom a => a.written_canonicalText
  | .list items => written_canonicalList (written_canonicalTexts items)
  | .tuple items => written_canonicalList (written_canonicalTexts items)
  | .mapping entries => written_canonicalObject (written_canonicalEntries entries)
  | .record model fields => by
      rw [canonicalText]
      refine written_canonicalObject fun member membership => ?_
      obtain ⟨name, _, rfl⟩ := List.mem_map.mp membership
      cases found : (canonicalFields fields).lookup name with
      | none => exact Atom.written_canonicalText .null
      | some text =>
          exact written_canonicalFields fields (name, text) (lookup_eq_some_mem found)

theorem written_canonicalTexts : ∀ items : List Value,
    ∀ text ∈ canonicalTexts items, Written text.toList
  | [] => by simp [canonicalTexts]
  | item :: rest => by
      rw [canonicalTexts, List.forall_mem_cons]
      exact ⟨written_canonicalText item, written_canonicalTexts rest⟩

theorem written_canonicalEntries : ∀ entries : List (Atom × Value),
    ∀ member ∈ canonicalEntries entries, Written member.2.toList
  | [] => by simp [canonicalEntries]
  | (key, value) :: rest => by
      rw [canonicalEntries, List.forall_mem_cons]
      exact ⟨written_canonicalText value, written_canonicalEntries rest⟩

theorem written_canonicalFields : ∀ fields : List (String × Value),
    ∀ member ∈ canonicalFields fields, Written member.2.toList
  | [] => by simp [canonicalFields]
  | (name, value) :: rest => by
      rw [canonicalFields, List.forall_mem_cons]
      exact ⟨written_canonicalText value, written_canonicalFields rest⟩

end

/-- The kind of the JSON value that a canonical text with this start stands for. -/
def kindOfStart (c : Char) : Kind :=
  if c = '[' then .array
  else if c = '\x7b' then .object
  else if c = '"' then .string
  else if c = 'n' then .null
  else if c = 't' || c = 'f' then .boolean
  else .number

theorem kindOfStart_digit {c : Char} (digit : c.isDigit = true) : kindOfStart c = .number := by
  have others : (['[', '\x7b', '"', 'n', 't', 'f'].all fun c => !c.isDigit) = true := by decide
  rw [List.all_eq_true] at others
  have different : c ∉ ['[', '\x7b', '"', 'n', 't', 'f'] := by
    intro membership
    simpa [digit] using others c membership
  simp only [List.mem_cons, List.not_mem_nil, or_false, not_or] at different
  simp [kindOfStart, different]

/-- Whether a value is no moment, no bytes and no number that stands in no order, which JSON cannot write. -/
def HasKind : Value → Prop
  | .atom (.number n) => n.IsOrdered
  | .atom (.time _) => False
  | .atom (.bytes _) => False
  | _ => True

theorem HasKind.kind?_eq {value : Value} (hasKind : value.HasKind) :
    value.kind? = value.canonicalText.toList.head?.map kindOfStart := by
  cases value with
  | atom a =>
      cases a with
      | null => decide
      | boolean value => cases value <;> decide
      | number n =>
          obtain ⟨c, rest, text, start⟩ := n.canonicalText_head hasKind
          rw [canonicalText, Atom.canonicalText, text]
          rcases start with digit | rfl | rfl
          · simp [kind?, atomKind?, kindOfStart_digit digit]
          · rfl
          · rfl
      | text content => rw [canonicalText, Atom.canonicalText, asciiQuoted_toList]; rfl
      | time moment => exact absurd hasKind id
      | bytes content => exact absurd hasKind id
  | list items => rw [canonicalText, canonicalList_toList]; rfl
  | tuple items => rw [canonicalText, canonicalList_toList]; rfl
  | mapping entries => rw [canonicalText, canonicalObject_toList]; rfl
  | record model fields => rw [canonicalText, canonicalObject_toList]; rfl

theorem IsJson.hasKind {value : Value} (json : value.IsJson) : value.HasKind := by
  cases value with
  | atom a => cases a <;> first | trivial | exact json.node
  | _ => trivial

theorem HasKind.kind?_congr {a b : Value} (first : a.HasKind) (second : b.HasKind)
    (same : a.canonicalText = b.canonicalText) : a.kind? = b.kind? := by
  rw [first.kind?_eq, second.kind?_eq, same]

end Value

/-! ### Lists and objects -/

theorem map_toList_injective : Function.Injective (List.map String.toList) :=
  List.map_injective_iff.mpr fun _ _ => String.toList_inj.mp

theorem canonicalList_eq_iff {xs ys : List String} (left : ∀ x ∈ xs, Written x.toList)
    (right : ∀ y ∈ ys, Written y.toList) : canonicalList xs = canonicalList ys ↔ xs = ys := by
  have written {texts : List String} (each : ∀ text ∈ texts, Written text.toList) :
      ∀ text ∈ texts.map String.toList, Written text := by
    rw [List.forall_mem_map]
    exact each
  constructor
  · intro same
    rw [← String.toList_inj, canonicalList_toList, canonicalList_toList] at same
    exact map_toList_injective (list_items_inj (written left) (written right) same)
  · rintro rfl
    rfl

theorem canonicalObject_inj {xs ys : List (String × String)}
    (left : ∀ x ∈ xs, Written x.2.toList) (right : ∀ y ∈ ys, Written y.2.toList)
    (same : canonicalObject xs = canonicalObject ys) : sortByName xs = sortByName ys := by
  rw [← String.toList_inj, canonicalObject_toList, canonicalObject_toList] at same
  have members := object_members_inj (written_writtenMembers left) (written_writtenMembers right) same
  have injective : Function.Injective fun member : String × String =>
      (member.1, member.2.toList) := by
    rintro ⟨name, text⟩ ⟨other, otherText⟩ equality
    simpa [String.toList_inj] using equality
  exact List.map_injective_iff.mpr injective members

theorem sortByName_perm {α : Type} (members : List (String × α)) :
    (sortByName members).Perm members :=
  List.mergeSort_perm _ _

theorem mem_iff_of_canonicalObject {xs ys : List (String × String)}
    (left : ∀ x ∈ xs, Written x.2.toList) (right : ∀ y ∈ ys, Written y.2.toList)
    (same : canonicalObject xs = canonicalObject ys) (member : String × String) :
    member ∈ xs ↔ member ∈ ys := by
  rw [← (sortByName_perm xs).mem_iff, canonicalObject_inj left right same,
    (sortByName_perm ys).mem_iff]

/-- Sorting by name forgets the order, and nothing else where names differ. -/
theorem sortByName_eq_iff {α : Type} {xs ys : List (String × α)}
    (namesDiffer : (xs.map Prod.fst).Nodup) : sortByName xs = sortByName ys ↔ xs.Perm ys := by
  have sorted (members : List (String × α)) :
      (sortByName members).Pairwise fun a b => a.1 ≤ b.1 := by
    have ordered : (members.mergeSort fun a b => decide (a.1 ≤ b.1)).Pairwise
        fun a b => decide (a.1 ≤ b.1) = true :=
      List.pairwise_mergeSort (fun a b c => by simpa using String.le_trans)
        (fun a b => by simpa using String.le_total a.1 b.1) members
    simpa [sortByName] using ordered
  have permX := sortByName_perm xs
  have permY := sortByName_perm ys
  constructor
  · intro same
    exact permX.symm.trans (same ▸ permY)
  · intro perm
    refine List.Perm.eq_of_pairwise ?_ (sorted xs) (sorted ys)
      (permX.trans (perm.trans permY.symm))
    intro a b inXs inYs below above
    have inY : b ∈ xs := perm.mem_iff.mpr (permY.mem_iff.mp inYs)
    exact List.inj_on_of_nodup_map namesDiffer (permX.mem_iff.mp inXs) inY
      (String.le_antisymm below above)

/-- Objects with distinct names are written alike when they have the same members. -/
theorem canonicalObject_eq_iff_perm {xs ys : List (String × String)}
    (left : ∀ x ∈ xs, Written x.2.toList) (right : ∀ y ∈ ys, Written y.2.toList)
    (namesDiffer : (xs.map Prod.fst).Nodup) :
    canonicalObject xs = canonicalObject ys ↔ xs.Perm ys := by
  rw [← sortByName_eq_iff namesDiffer]
  exact ⟨canonicalObject_inj left right, fun same => by rw [canonicalObject, canonicalObject, same]⟩

/-- Objects with distinct names are written alike when every name finds the same in both. -/
theorem canonicalObject_eq_iff_lookup {xs ys : List (String × String)}
    (left : ∀ x ∈ xs, Written x.2.toList) (right : ∀ y ∈ ys, Written y.2.toList)
    (namesDiffer : (xs.map Prod.fst).Nodup) (namesDifferToo : (ys.map Prod.fst).Nodup) :
    canonicalObject xs = canonicalObject ys ↔ ∀ name, xs.lookup name = ys.lookup name := by
  rw [canonicalObject_eq_iff_perm left right namesDiffer,
    List.perm_ext_iff_of_nodup namesDiffer.of_map namesDifferToo.of_map]
  constructor
  · intro sameMembers name
    apply Option.ext
    intro text
    rw [lookup_eq_some_iff_mem namesDiffer, lookup_eq_some_iff_mem namesDifferToo, sameMembers]
  · rintro sameFound ⟨name, text⟩
    rw [← lookup_eq_some_iff_mem namesDiffer, ← lookup_eq_some_iff_mem namesDifferToo, sameFound]

namespace Value

theorem IsJson.memberNames {entries : List (Atom × Value)} (json : (Value.mapping entries).IsJson) :
    entries.map Prod.fst = ((canonicalEntries entries).map Prod.fst).map Atom.text := by
  rw [canonicalEntries_eq, List.map_map, List.map_map]
  refine List.map_congr_left fun entry membership => ?_
  obtain ⟨name, named⟩ := json.key membership
  simp [named, Atom.keyText]

theorem IsJson.memberNamesDiffer {entries : List (Atom × Value)}
    (json : (Value.mapping entries).IsJson) :
    ((canonicalEntries entries).map Prod.fst).Nodup := by
  have keysDiffer := json.keysDiffer
  rw [json.memberNames] at keysDiffer
  exact keysDiffer.of_map _

theorem lookup_canonicalEntries {entries : List (Atom × Value)}
    (keys : ∀ entry ∈ entries, ∃ name, entry.1 = .text name) (name : String) :
    (canonicalEntries entries).lookup name = (lookupText name entries).map canonicalText := by
  induction entries with
  | nil => rfl
  | cons entry rest inductionHypothesis =>
      rw [List.forall_mem_cons] at keys
      rcases entry with ⟨key, value⟩
      obtain ⟨own, rfl⟩ := keys.1
      rw [canonicalEntries, Atom.keyText, List.lookup_cons, inductionHypothesis keys.2, lookupText]
      by_cases same : own = name
      · simp [same]
      · have other : (name == own) = false := by simpa using Ne.symm same
        simp [same, other]

theorem mem_canonicalEntries {entries : List (Atom × Value)} {member : String × String}
    (json : (Value.mapping entries).IsJson) :
    member ∈ canonicalEntries entries ↔
      ∃ value, (Atom.text member.1, value) ∈ entries ∧ value.canonicalText = member.2 := by
  rw [canonicalEntries_eq, List.mem_map]
  constructor
  · rintro ⟨⟨key, value⟩, membership, rfl⟩
    obtain ⟨name, named⟩ := json.key membership
    simp only at named
    subst named
    exact ⟨value, membership, rfl⟩
  · rintro ⟨value, membership, text⟩
    exact ⟨_, membership, by rw [text]; rfl⟩

theorem canonicalObject_eq_iff {xs ys : List (Atom × Value)} (first : (Value.mapping xs).IsJson) :
    canonicalObject (canonicalEntries xs) = canonicalObject (canonicalEntries ys) ↔
      xs.length = ys.length ∧ ∀ member ∈ canonicalEntries xs, member ∈ canonicalEntries ys := by
  have length (entries : List (Atom × Value)) :
      (canonicalEntries entries).length = entries.length := by
    rw [canonicalEntries_eq, List.length_map]
  rw [canonicalObject_eq_iff_perm (written_canonicalEntries xs) (written_canonicalEntries ys)
    first.memberNamesDiffer]
  constructor
  · intro perm
    exact ⟨by rw [← length xs, perm.length_eq, length ys], fun member => perm.mem_iff.mp⟩
  · rintro ⟨sameLength, found⟩
    refine (List.subperm_of_subset first.memberNamesDiffer.of_map found).perm_of_length_le ?_
    rw [length, length, sameLength]

theorem kind?_eq_of_isSimilar {a b : Value} (similar : a.isSimilar b = true) :
    a.kind? = b.kind? := by
  cases a with
  | atom a =>
      cases b with
      | atom b =>
          cases a <;> cases b <;> simp_all [isSimilar, Atom.isSimilar, kind?, atomKind?]
      | _ => simp [isSimilar] at similar
  | list xs => cases b <;> first | rfl | simp [isSimilar] at similar
  | mapping xs => cases b <;> first | rfl | simp [isSimilar] at similar
  | tuple xs => simp [isSimilar] at similar
  | record model fields => simp [isSimilar] at similar

/-- The canonical texts of atoms of one kind agree exactly when the atoms are similar. -/
theorem atom_canonicalText_eq_iff {a b : Atom} (first : (Value.atom a).IsJson)
    (second : (Value.atom b).IsJson) (kinds : atomKind? a = atomKind? b) :
    a.canonicalText = b.canonicalText ↔ a.isSimilar b = true := by
  cases a with
  | null => cases b <;> simp_all [atomKind?, Atom.isSimilar]
  | boolean value =>
      cases b with
      | boolean other => cases value <;> cases other <;> decide
      | _ => simp [atomKind?] at kinds
  | number n =>
      cases b with
      | number m =>
          rw [Atom.canonicalText, Atom.canonicalText, Atom.isSimilar,
            Numeral.canonicalText_eq_iff first.node second.node,
            Numeral.isEqual_iff first.node second.node]
      | _ => simp [atomKind?] at kinds
  | text content =>
      cases b with
      | text other =>
          rw [Atom.canonicalText, Atom.canonicalText, Atom.isSimilar]
          · rw [decide_eq_true_eq, Atom.text.injEq]
            exact ⟨asciiQuoted_injective, fun same => by rw [same]⟩
          · simp
      | _ => simp [atomKind?] at kinds
  | time moment => exact absurd first.node (by simp [IsJsonNode])
  | bytes content => exact absurd first.node (by simp [IsJsonNode])

theorem canonicalText_eq_iff_of_kind {a b : Value} (first : a.IsJson) (second : b.IsJson)
    (sameKind : a.kind? = b.kind? →
      (a.canonicalText = b.canonicalText ↔ a.isSimilar b = true)) :
    a.canonicalText = b.canonicalText ↔ a.isSimilar b = true := by
  constructor
  · intro same
    exact (sameKind (first.hasKind.kind?_congr second.hasKind same)).mp same
  · intro similar
    exact (sameKind (kind?_eq_of_isSimilar similar)).mpr similar

theorem list_canonicalText_eq_iff {xs ys : List Value}
    (pair : ∀ {x y}, (x, y) ∈ xs.zip ys → (x.canonicalText = y.canonicalText ↔ x.isSimilar y = true)) :
    (Value.list xs).canonicalText = (Value.list ys).canonicalText ↔
      (Value.list xs).isSimilar (.list ys) = true := by
  rw [canonicalText, canonicalText,
    canonicalList_eq_iff (written_canonicalTexts xs) (written_canonicalTexts ys),
    canonicalTexts_eq, canonicalTexts_eq, map_eq_map_iff_zip, isSimilar, areSimilar_iff,
    List.forall₂_iff_zip]
  refine and_congr_right fun _ => ?_
  exact ⟨fun each _ _ paired => (pair paired).mp (each _ paired),
    fun each _ paired => (pair paired).mpr (each paired)⟩

theorem mapping_canonicalText_eq_iff {xs ys : List (Atom × Value)} (first : (Value.mapping xs).IsJson)
    (second : (Value.mapping ys).IsJson)
    (pair : ∀ entry ∈ xs, ∀ {y : Value}, y.IsJson →
      (entry.2.canonicalText = y.canonicalText ↔ entry.2.isSimilar y = true)) :
    (Value.mapping xs).canonicalText = (Value.mapping ys).canonicalText ↔
      (Value.mapping xs).isSimilar (.mapping ys) = true := by
  rw [canonicalText, canonicalText, canonicalObject_eq_iff first, isSimilar, Bool.and_eq_true,
    beq_iff_eq, areFoundIn_iff]
  refine and_congr_right fun _ => ?_
  rw [canonicalEntries_eq xs, List.forall_mem_map]
  refine forall₂_congr fun entry inXs => ?_
  obtain ⟨name, named⟩ := first.key inXs
  rw [mem_canonicalEntries second]
  refine exists_congr fun like => ?_
  rw [lookup_eq_some_iff_mem second.keysDiffer, named, Atom.keyText]
  refine and_congr_right fun inYs => ?_
  rw [eq_comm]
  exact pair entry inXs (second.entry inYs)

/-- Two JSON values have one canonical text exactly when they are similar. -/
theorem IsJson.canonicalText_eq_iff {a b : Value} (first : a.IsJson) (second : b.IsJson) :
    a.canonicalText = b.canonicalText ↔ a.isSimilar b = true := by
  induction a, first using jsonInduction generalizing b with
  | atom a first =>
      refine canonicalText_eq_iff_of_kind first second fun kinds => ?_
      cases b, second using jsonCases with
      | atom b second => exact atom_canonicalText_eq_iff first second kinds
      | list ys _ => cases a <;> simp [kind?, atomKind?] at kinds
      | mapping ys _ => cases a <;> simp [kind?, atomKind?] at kinds
  | list xs first inductionHypothesis =>
      refine canonicalText_eq_iff_of_kind first second fun kinds => ?_
      cases b, second using jsonCases with
      | atom b _ => cases b <;> simp [kind?, atomKind?] at kinds
      | list ys second =>
          refine list_canonicalText_eq_iff fun paired => ?_
          obtain ⟨inXs, inYs⟩ := List.of_mem_zip paired
          exact inductionHypothesis _ inXs (second.item inYs)
      | mapping ys _ => simp [kind?] at kinds
  | mapping xs first inductionHypothesis =>
      refine canonicalText_eq_iff_of_kind first second fun kinds => ?_
      cases b, second using jsonCases with
      | atom b _ => cases b <;> simp [kind?, atomKind?] at kinds
      | list ys _ => simp [kind?] at kinds
      | mapping ys second => exact mapping_canonicalText_eq_iff first second inductionHypothesis

theorem repeats_eq_false_iff {texts : List String} : repeats texts = false ↔ texts.Nodup := by
  induction texts with
  | nil => simp [repeats]
  | cons first rest inductionHypothesis => simp [repeats, inductionHypothesis]

theorem hasDuplicates_eq_false_iff {items : List Value} (each : ∀ item ∈ items, item.IsJson) :
    hasDuplicates items = false ↔ items.Pairwise fun a b => a.isSimilar b = false := by
  rw [hasDuplicates, repeats_eq_false_iff, canonicalTexts_eq, List.Nodup, List.pairwise_map]
  refine List.Pairwise.iff_of_mem fun {a b} inItems inOthers => ?_
  rw [Ne, (each a inItems).canonicalText_eq_iff (each b inOthers), Bool.not_eq_true]

end Value

end AnimationGrammar
