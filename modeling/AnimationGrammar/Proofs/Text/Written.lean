import AnimationGrammar.Value.Canonical
import AnimationGrammar.Proofs.Number.Text
import AnimationGrammar.Proofs.Text.Pieces
import AnimationGrammar.Proofs.Text.Quoted
import Mathlib.Data.List.Basic

/-!
Texts that show where they end.

`Written` describes how canonical texts are put together: from words, quoted texts, lists and objects.
Where two of them, each with something behind it, are one text, they are the same text with the same
behind it.
-/

namespace AnimationGrammar

/-- The characters by which texts are told apart. -/
def structureChars : List Char := [',', ']', '\x7d', '"', '[', '\x7b']

def EndsText (rest : List Char) : Prop := ∀ c ∈ rest.head?, c ∈ [',', ']', '\x7d']

def memberText (name : String) (body : List Char) : List Char :=
  (asciiQuoted name).toList ++ ':' :: body

/-- A text of which the end can be told. -/
inductive Written : List Char → Prop
  | word {text} : text ≠ [] → (∀ c ∈ text, c ∉ structureChars) → Written text
  | quoted (content : String) : Written (asciiQuoted content).toList
  | list {items : List (List Char)} : (∀ item ∈ items, Written item) →
      Written ('[' :: ([','].intercalate items ++ [']']))
  | object {members : List (String × List Char)} : (∀ member ∈ members, Written member.2) →
      Written ('\x7b' ::
        ([','].intercalate (members.map fun member => memberText member.1 member.2) ++ ['\x7d']))

/-- Two texts that cannot be parts of one text unless they are the same. -/
def Apart (first second : List Char) : Prop :=
  ∀ rest later, EndsText rest → EndsText later → first ++ rest = second ++ later →
    first = second ∧ rest = later

/-- A text that starts with something else than an end. -/
def Opens (text : List Char) : Prop := ∃ c rest, text = c :: rest ∧ c ∉ [',', ']', '\x7d']

theorem endsText_cons {c : Char} (stop : c ∈ [',', ']', '\x7d']) (rest : List Char) :
    EndsText (c :: rest) := by
  intro head same
  simp only [List.head?_cons, Option.mem_def, Option.some.injEq] at same
  exact same ▸ stop

theorem Written.opens {text : List Char} (written : Written text) : Opens text := by
  cases written with
  | @word text given plain =>
      cases text with
      | nil => exact absurd rfl given
      | cons c rest =>
          refine ⟨c, rest, rfl, fun stop => plain c List.mem_cons_self ?_⟩
          simp only [List.mem_cons, List.not_mem_nil, or_false] at stop
          rcases stop with rfl | rfl | rfl <;> decide
  | quoted content => exact ⟨'"', _, asciiQuoted_toList content, by decide⟩
  | list _ => exact ⟨'[', _, rfl, by decide⟩
  | object _ => exact ⟨'\x7b', _, rfl, by decide⟩

theorem memberText_opens (name : String) (body : List Char) : Opens (memberText name body) := by
  refine ⟨'"', name.toList.flatMap asciiEscaped ++ ['"'] ++ ':' :: body, ?_, by decide⟩
  rw [memberText, asciiQuoted_toList, List.cons_append]

theorem memberText_apart {first second : String} {body other : List Char} (apart : Apart body other) :
    Apart (memberText first body) (memberText second other) := by
  intro rest later endsFirst endsSecond same
  rw [memberText, memberText, List.append_assoc, List.append_assoc] at same
  obtain ⟨names, bodies⟩ := asciiQuoted_append_inj same
  rw [List.cons_append, List.cons_append, List.cons.injEq] at bodies
  obtain ⟨equal, ends⟩ := apart rest later endsFirst endsSecond bodies.2
  exact ⟨by rw [names, equal], ends⟩

def afterFirst (others : List (List Char)) (tail : List Char) : List Char :=
  match others with
  | [] => tail
  | others => ',' :: ([','].intercalate others ++ tail)

theorem intercalate_cons_append (first : List Char) (others : List (List Char)) (tail : List Char) :
    [','].intercalate (first :: others) ++ tail = first ++ afterFirst others tail := by
  cases others with
  | nil => rw [List.intercalate_singleton, afterFirst]
  | cons second others =>
      rw [List.intercalate_cons_cons, afterFirst, List.append_assoc, List.append_assoc,
        List.singleton_append]
      simp

/-- Sequences of texts that can be told apart can be told apart, up to their closing character. -/
theorem intercalate_append_inj {close : Char} (stop : close ∈ [']', '\x7d'])
    {xs ys : List (List Char)} (apart : ∀ x ∈ xs, ∀ y ∈ ys, Apart x y)
    (openX : ∀ x ∈ xs, Opens x) (openY : ∀ y ∈ ys, Opens y) {rest later : List Char}
    (same : [','].intercalate xs ++ close :: rest = [','].intercalate ys ++ close :: later) :
    xs = ys ∧ rest = later := by
  have stops : close ∈ [',', ']', '\x7d'] := List.mem_cons_of_mem _ stop
  have noComma : close ≠ ',' := by
    rintro rfl
    simp at stop
  have clash {text tail more : List Char} (opens : Opens text) : text ++ tail ≠ close :: more := by
    obtain ⟨c, body, rfl, noStop⟩ := opens
    intro equality
    rw [List.cons_append, List.cons.injEq] at equality
    exact noStop (equality.1 ▸ stops)
  have ends (others : List (List Char)) (more : List Char) :
      EndsText (afterFirst others (close :: more)) := by
    cases others with
    | nil => exact endsText_cons stops more
    | cons other others => exact endsText_cons (by decide) _
  induction xs generalizing ys with
  | nil =>
      cases ys with
      | nil =>
          rw [List.intercalate_nil, List.nil_append, List.nil_append, List.cons.injEq] at same
          exact ⟨rfl, same.2⟩
      | cons y ys =>
          rw [List.intercalate_nil, List.nil_append, intercalate_cons_append] at same
          exact absurd same.symm (clash (openY y List.mem_cons_self))
  | cons x xs inductionHypothesis =>
      cases ys with
      | nil =>
          rw [List.intercalate_nil, List.nil_append, intercalate_cons_append] at same
          exact absurd same (clash (openX x List.mem_cons_self))
      | cons y ys =>
          rw [intercalate_cons_append, intercalate_cons_append] at same
          obtain ⟨rfl, tails⟩ := apart x List.mem_cons_self y List.mem_cons_self _ _
            (ends xs rest) (ends ys later) same
          cases xs with
          | nil =>
              cases ys with
              | nil =>
                  simp only [afterFirst, List.cons.injEq, true_and] at tails
                  exact ⟨rfl, tails⟩
              | cons second ys =>
                  simp only [afterFirst, List.cons.injEq] at tails
                  exact absurd tails.1 noComma
          | cons next xs =>
              cases ys with
              | nil =>
                  simp only [afterFirst, List.cons.injEq] at tails
                  exact absurd tails.1.symm noComma
              | cons second ys =>
                  simp only [afterFirst, List.cons.injEq, true_and] at tails
                  obtain ⟨equal, after⟩ := inductionHypothesis
                    (fun x inXs y inYs => apart x (List.mem_cons_of_mem _ inXs) y
                      (List.mem_cons_of_mem _ inYs))
                    (fun x inXs => openX x (List.mem_cons_of_mem _ inXs))
                    (fun y inYs => openY y (List.mem_cons_of_mem _ inYs)) tails
                  exact ⟨by rw [equal], after⟩

theorem EndsText.isStructure {rest : List Char} (ends : EndsText rest) :
    ∀ c ∈ rest.head?, decide (c ∉ structureChars) = false := by
  intro c first
  have inEnds := ends c first
  simp only [List.mem_cons, List.not_mem_nil, or_false] at inEnds
  rcases inEnds with rfl | rfl | rfl <;> decide

theorem memberText_injective {first second : String} {body other : List Char}
    (same : memberText first body = memberText second other) : first = second ∧ body = other := by
  rw [memberText, memberText] at same
  obtain ⟨names, bodies⟩ := asciiQuoted_append_inj same
  exact ⟨names, (List.cons.inj bodies).2⟩

/-- Members whose bodies can be told apart are found in the text of their object. -/
theorem members_append_inj {xs ys : List (String × List Char)}
    (apart : ∀ x ∈ xs, ∀ y ∈ ys, Apart x.2 y.2) {rest later : List Char}
    (same : [','].intercalate (xs.map fun member => memberText member.1 member.2) ++
        '\x7d' :: rest =
      [','].intercalate (ys.map fun member => memberText member.1 member.2) ++ '\x7d' :: later) :
    xs = ys ∧ rest = later := by
  have opens (members : List (String × List Char)) :
      ∀ x ∈ members.map fun member => memberText member.1 member.2, Opens x := by
    intro x inMembers
    obtain ⟨member, _, rfl⟩ := List.mem_map.mp inMembers
    exact memberText_opens _ _
  have texts : ∀ x ∈ xs.map fun member => memberText member.1 member.2,
      ∀ y ∈ ys.map fun member => memberText member.1 member.2, Apart x y := by
    intro x inXs y inYs
    obtain ⟨member, membership, rfl⟩ := List.mem_map.mp inXs
    obtain ⟨other, otherMembership, rfl⟩ := List.mem_map.mp inYs
    exact memberText_apart (apart member membership other otherMembership)
  obtain ⟨equal, ends⟩ := intercalate_append_inj (by decide) texts (opens xs) (opens ys) same
  have injective : Function.Injective fun member : String × List Char =>
      memberText member.1 member.2 := by
    rintro ⟨name, body⟩ ⟨other, otherBody⟩ equality
    obtain ⟨rfl, rfl⟩ := memberText_injective equality
    rfl
  exact ⟨List.map_injective_iff.mpr injective equal, ends⟩

theorem word_head {text rest more : List Char} {c : Char} (given : text ≠ [])
    (plain : ∀ c ∈ text, c ∉ structureChars) (same : text ++ rest = c :: more) :
    c ∉ structureChars := by
  cases text with
  | nil => exact absurd rfl given
  | cons first text =>
      rw [List.cons_append, List.cons.injEq] at same
      exact same.1 ▸ plain first List.mem_cons_self

/-- Written texts can be told apart. -/
theorem Written.apart {first second : List Char} (left : Written first) (right : Written second) :
    Apart first second := by
  induction left generalizing second with
  | @word text given plain =>
      intro rest later endsFirst endsSecond same
      cases right with
      | word _ plainOther =>
          exact run_append_inj (by simpa using plain) (by simpa using plainOther) endsFirst.isStructure
            endsSecond.isStructure same
      | quoted other =>
          rw [asciiQuoted_toList, List.cons_append] at same
          exact absurd (by decide) (word_head given plain same)
      | list _ =>
          rw [List.cons_append] at same
          exact absurd (by decide) (word_head given plain same)
      | object _ =>
          rw [List.cons_append] at same
          exact absurd (by decide) (word_head given plain same)
  | quoted content =>
      intro rest later endsFirst endsSecond same
      cases right with
      | word given plain =>
          rw [asciiQuoted_toList, List.cons_append] at same
          exact absurd (by decide) (word_head given plain same.symm)
      | quoted other =>
          obtain ⟨rfl, ends⟩ := asciiQuoted_append_inj same
          exact ⟨rfl, ends⟩
      | list _ => simp [asciiQuoted_toList] at same
      | object _ => simp [asciiQuoted_toList] at same
  | @list items written inductionHypothesis =>
      intro rest later endsFirst endsSecond same
      cases right with
      | word given plain =>
          rw [List.cons_append] at same
          exact absurd (by decide) (word_head given plain same.symm)
      | quoted other => simp [asciiQuoted_toList] at same
      | @list others writtenOther =>
          simp only [List.cons_append, List.append_assoc, List.nil_append, List.cons.injEq, true_and]
            at same
          obtain ⟨rfl, ends⟩ := intercalate_append_inj (by decide)
            (fun x inItems y inOthers => inductionHypothesis x inItems (writtenOther y inOthers))
            (fun x inItems => (written x inItems).opens)
            (fun y inOthers => (writtenOther y inOthers).opens) same
          exact ⟨rfl, ends⟩
      | object _ => simp at same
  | @object members written inductionHypothesis =>
      intro rest later endsFirst endsSecond same
      cases right with
      | word given plain =>
          rw [List.cons_append] at same
          exact absurd (by decide) (word_head given plain same.symm)
      | quoted other => simp [asciiQuoted_toList] at same
      | list _ => simp at same
      | @object others writtenOther =>
          simp only [List.cons_append, List.append_assoc, List.nil_append, List.cons.injEq, true_and]
            at same
          obtain ⟨rfl, ends⟩ := members_append_inj (fun member inMembers other inOthers =>
            inductionHypothesis member inMembers (writtenOther other inOthers)) same
          exact ⟨rfl, ends⟩

theorem list_items_inj {xs ys : List (List Char)} (left : ∀ x ∈ xs, Written x)
    (right : ∀ y ∈ ys, Written y)
    (same : '[' :: ([','].intercalate xs ++ [']']) = '[' :: ([','].intercalate ys ++ [']'])) :
    xs = ys := by
  rw [List.cons.injEq] at same
  exact (intercalate_append_inj (by decide) (fun x inXs y inYs => (left x inXs).apart (right y inYs))
    (fun x inXs => (left x inXs).opens) (fun y inYs => (right y inYs).opens) same.2).1

theorem object_members_inj {xs ys : List (String × List Char)} (left : ∀ x ∈ xs, Written x.2)
    (right : ∀ y ∈ ys, Written y.2)
    (same : '\x7b' ::
        ([','].intercalate (xs.map fun member => memberText member.1 member.2) ++ ['\x7d']) =
      '\x7b' ::
        ([','].intercalate (ys.map fun member => memberText member.1 member.2) ++ ['\x7d'])) :
    xs = ys := by
  rw [List.cons.injEq] at same
  exact (members_append_inj (fun x inXs y inYs => (left x inXs).apart (right y inYs)) same.2).1

end AnimationGrammar
