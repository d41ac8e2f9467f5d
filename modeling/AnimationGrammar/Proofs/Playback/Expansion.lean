import AnimationGrammar.Playback.Expansion
import AnimationGrammar.Proofs.Text.DatabaseEntry
import Mathlib.Algebra.BigOperators.Group.List.Basic
import Mathlib.Data.List.Forall2

/-!
Expansion is a product.

A choice picks one alternative for every group of a database entry.  Expansion finds the groups by cutting
the text at braces, without reading the entry, and yet writes exactly one result for every choice, in the
lexicographic order of the choices.
-/

namespace AnimationGrammar

/-! ### Cutting -/

theorem choices_of_notMem {text : List Char} (free : '\x7b' ∉ text) : choices text = [[text]] := by
  rw [choices, List.splitOn_eq_singleton free]
  rfl

theorem IsGroup.notMem_joined {alternatives : List (List Char)} (isGroup : IsGroup alternatives)
    {brace : Char} (isBrace : brace ∈ ['\x7b', '\x7d']) :
    brace ∉ [','].intercalate alternatives := by
  obtain ⟨notFree, notComma, -⟩ := isFreeChar_brace isBrace
  intro membership
  rcases mem_intercalate membership with comma | ⟨alternative, inGroup, inside⟩
  · exact notComma comma
  · exact (isGroup.isRun alternative inGroup).notMem notFree inside

theorem IsGroup.splitOn_joined {alternatives : List (List Char)} (isGroup : IsGroup alternatives) :
    ([','].intercalate alternatives).splitOn ',' = alternatives := by
  apply List.splitOn_intercalate
  · exact fun alternative membership => (isGroup.isRun alternative membership).notMem rfl
  · apply List.ne_nil_of_length_pos
    exact lt_of_lt_of_le Nat.zero_lt_two isGroup.two_le_length

theorem groupChoices_eq {alternatives : List (List Char)} (isGroup : IsGroup alternatives)
    (after : List Char) :
    groupChoices ([','].intercalate alternatives ++ '\x7d' :: after) = [alternatives, [after]] := by
  have inside : ∀ c ∈ [','].intercalate alternatives, decide (c ≠ '\x7d') = true := by
    intro c membership
    rw [decide_eq_true_eq]
    rintro rfl
    exact isGroup.notMem_joined (by decide) membership
  have given : [','].intercalate alternatives ≠ [] := by
    intro empty
    have cut := isGroup.splitOn_joined
    rw [empty, List.splitOn_nil] at cut
    have long := isGroup.two_le_length
    rw [← cut] at long
    simp at long
  rw [groupChoices, List.takeWhile_append_of_pos inside, List.dropWhile_append_of_pos inside]
  cases joined : [','].intercalate alternatives with
  | nil => exact absurd joined given
  | cons c body =>
      simp only [ne_eq, not_true_eq_false, decide_false, Bool.false_eq_true, not_false_eq_true,
        List.takeWhile_cons_of_neg, List.append_nil, List.dropWhile_cons_of_neg]
      rw [← joined, isGroup.splitOn_joined]

/-- Cutting finds the first group of a text and goes on behind it. -/
theorem choices_group {lead : List Char} (free : '\x7b' ∉ lead) {alternatives : List (List Char)}
    (isGroup : IsGroup alternatives) (after : List Char) :
    choices (lead ++ ((EntrySegment.group alternatives).text ++ after)) =
      [lead] :: alternatives :: choices after := by
  have closed : '\x7b' ∉ [','].intercalate alternatives ++ ['\x7d'] := by
    rw [List.mem_append, not_or]
    exact ⟨isGroup.notMem_joined (by decide), by decide⟩
  rw [choices, choices, EntrySegment.text, List.cons_append,
    List.cons_append, List.splitOn_append_cons_self_of_not_mem free, splitOn_append_of_notMem closed]
  cases pieces : after.splitOn '\x7b' with
  | nil => exact absurd pieces (List.splitOn_ne_nil _ after)
  | cons first others =>
      simp [groupChoices_eq isGroup]

/-! ### Choices -/

/-- The parts of an entry when a choice settles its groups. -/
def pieces : List EntrySegment → List Nat → List (List Char)
  | [], _ => []
  | .word text :: rest, choice => text :: pieces rest choice
  | .group alternatives :: rest, choice =>
      alternatives.getD (choice.headD 0) [] :: pieces rest choice.tail

/-- A choice gives, for every group, the number of one of its alternatives. -/
def IsChoiceFor (groups : List (List (List Char))) (choice : List Nat) : Prop :=
  List.Forall₂ (fun index alternatives => index < alternatives.length) choice groups

def choiceLists : List (List (List Char)) → List (List Nat)
  | [] => [[]]
  | alternatives :: rest =>
      (List.range alternatives.length).flatMap fun index => (choiceLists rest).map (index :: ·)

theorem mem_choiceLists_iff {groups : List (List (List Char))} {choice : List Nat} :
    choice ∈ choiceLists groups ↔ IsChoiceFor groups choice := by
  induction groups generalizing choice with
  | nil => simp [choiceLists, IsChoiceFor]
  | cons alternatives rest inductionHypothesis =>
      rw [choiceLists, List.mem_flatMap, IsChoiceFor, List.forall₂_cons_right_iff]
      constructor
      · rintro ⟨index, inRange, membership⟩
        obtain ⟨later, inRest, rfl⟩ := List.mem_map.mp membership
        exact ⟨index, later, List.mem_range.mp inRange, inductionHypothesis.mp inRest, rfl⟩
      · rintro ⟨index, later, below, isChoice, rfl⟩
        refine ⟨index, List.mem_range.mpr below, ?_⟩
        exact List.mem_map_of_mem (inductionHypothesis.mpr isChoice)

theorem choiceLists_sorted (groups : List (List (List Char))) :
    (choiceLists groups).Pairwise (· < ·) := by
  induction groups with
  | nil => exact List.pairwise_singleton _ _
  | cons alternatives rest inductionHypothesis =>
      rw [choiceLists, List.pairwise_flatMap]
      constructor
      · intro index _
        rw [List.pairwise_map]
        exact inductionHypothesis.imp fun smaller => List.cons_lt_cons_iff.mpr (.inr ⟨rfl, smaller⟩)
      · refine List.pairwise_lt_range.imp fun {first second} smaller => ?_
        intro choice inFirst other inSecond
        obtain ⟨later, -, rfl⟩ := List.mem_map.mp inFirst
        obtain ⟨otherLater, -, rfl⟩ := List.mem_map.mp inSecond
        exact List.cons_lt_cons_iff.mpr (.inl smaller)

theorem length_choiceLists (groups : List (List (List Char))) :
    (choiceLists groups).length = (groups.map List.length).prod := by
  induction groups with
  | nil => rfl
  | cons alternatives rest inductionHypothesis =>
      rw [choiceLists, List.length_flatMap, List.map_cons, List.prod_cons, ← inductionHypothesis]
      simp

theorem mem_pieces {segments : List EntrySegment} {choice : List Nat}
    (isChoice : IsChoiceFor (segments.filterMap EntrySegment.alternatives?) choice)
    {piece : List Char} (membership : piece ∈ pieces segments choice) :
    EntrySegment.word piece ∈ segments ∨
      ∃ alternatives, EntrySegment.group alternatives ∈ segments ∧ piece ∈ alternatives := by
  induction segments generalizing choice with
  | nil => simp [pieces] at membership
  | cons segment rest inductionHypothesis =>
      cases segment with
      | word text =>
          rcases List.mem_cons.mp membership with here | later
          · exact .inl (here ▸ List.mem_cons_self)
          · rcases inductionHypothesis isChoice later with inRest | ⟨alternatives, inRest, inside⟩
            · exact .inl (List.mem_cons_of_mem _ inRest)
            · exact .inr ⟨alternatives, List.mem_cons_of_mem _ inRest, inside⟩
      | group alternatives =>
          obtain ⟨index, others, below, isRest, rfl⟩ := List.forall₂_cons_right_iff.mp isChoice
          rcases List.mem_cons.mp membership with here | later
          · refine .inr ⟨alternatives, List.mem_cons_self, ?_⟩
            rw [here, List.headD_cons, ← List.getElem_eq_getD (h := below)]
            exact List.getElem_mem below
          · rcases inductionHypothesis isRest later with inRest | ⟨others, inRest, inside⟩
            · exact .inl (List.mem_cons_of_mem _ inRest)
            · exact .inr ⟨others, List.mem_cons_of_mem _ inRest, inside⟩

namespace DatabaseEntry

def IsChoice (entry : DatabaseEntry) (choice : List Nat) : Prop := IsChoiceFor entry.groups choice

/-- The entry in which every group is the alternative that a choice picks for it. -/
def filled (entry : DatabaseEntry) (choice : List Nat) : String :=
  String.ofList (['.'].intercalate (entry.head :: pieces entry.segments choice))

theorem pieces_areFree (entry : DatabaseEntry) {choice : List Nat} (isChoice : entry.IsChoice choice) :
    ∀ piece ∈ pieces entry.segments choice, IsRunOf isFreeChar piece := by
  intro piece membership
  rcases mem_pieces isChoice membership with isWord | ⟨alternatives, isGroup, inside⟩
  · exact (show IsRunOf isEntryChar piece from entry.valid _ isWord).imp
      fun c plain => isFreeChar_of_isEntryChar plain
  · exact IsGroup.isRun (entry.valid _ isGroup) piece inside

theorem notMem_filled (entry : DatabaseEntry) {choice : List Nat} (isChoice : entry.IsChoice choice)
    {brace : Char} (isBrace : brace ∈ ['\x7b', '\x7d']) : brace ∉ (entry.filled choice).toList := by
  obtain ⟨notFree, -, notDot⟩ := isFreeChar_brace isBrace
  rw [filled, String.toList_ofList]
  intro membership
  rcases mem_intercalate membership with dot | ⟨piece, inEntry, inside⟩
  · exact notDot dot
  · have isFree : IsRunOf isFreeChar piece := by
      rcases List.mem_cons.mp inEntry with rfl | inPieces
      · exact entry.isHead.isRun.imp fun c plain => isFreeChar_of_isEntryChar plain
      · exact entry.pieces_areFree isChoice piece inPieces
    exact isFree.notMem notFree inside

end DatabaseEntry

/-! ### All results -/

theorem map_getD_range (alternatives : List (List Char)) :
    (List.range alternatives.length).map (fun index => alternatives.getD index []) = alternatives := by
  apply List.ext_getElem
  · simp
  · intro index inRange below
    simp [below]

theorem combinations_lead (lead : List Char) (rest : List (List (List Char))) :
    combinations ([lead] :: rest) = (combinations rest).map (lead ++ ·) := by
  simp [combinations]

theorem combinations_group (alternatives : List (List Char)) (rest : List (List (List Char))) :
    combinations (alternatives :: rest) =
      (List.range alternatives.length).flatMap fun index =>
        (combinations rest).map (alternatives.getD index [] ++ ·) := by
  conv_lhs => rw [combinations, ← map_getD_range alternatives]
  rw [List.flatMap_map]

/-- Behind any lead without a group, cutting and combining fill the segments by all choices. -/
theorem combinations_choices {segments : List EntrySegment}
    (valid : ∀ segment ∈ segments, segment.IsValid) {lead : List Char} (free : '\x7b' ∉ lead) :
    combinations (choices (lead ++ (segments.map EntrySegment.text).flatMap ('.' :: ·))) =
      (choiceLists (segments.filterMap EntrySegment.alternatives?)).map fun choice =>
        lead ++ (pieces segments choice).flatMap ('.' :: ·) := by
  induction segments generalizing lead with
  | nil =>
      rw [List.map_nil, List.flatMap_nil, List.append_nil, choices_of_notMem free, combinations_lead]
      simp [combinations, choiceLists, pieces]
  | cons segment rest inductionHypothesis =>
      rw [List.forall_mem_cons] at valid
      obtain ⟨here, valid⟩ := valid
      rw [List.map_cons, List.flatMap_cons]
      cases segment with
      | word text =>
          have longer : '\x7b' ∉ lead ++ '.' :: text := by
            have inWord : '\x7b' ∉ text := IsRunOf.notMem here (by decide)
            simp [free, inWord]
          have sameGroups : (EntrySegment.word text :: rest).filterMap EntrySegment.alternatives? =
              rest.filterMap EntrySegment.alternatives? := rfl
          rw [EntrySegment.text, ← List.append_assoc, inductionHypothesis valid longer, sameGroups]
          simp [pieces]
      | group alternatives =>
          have longer : '\x7b' ∉ lead ++ ['.'] := by simp [free]
          have noLead : '\x7b' ∉ ([] : List Char) := List.not_mem_nil
          have later := inductionHypothesis valid noLead
          have moreGroups :
              (EntrySegment.group alternatives :: rest).filterMap EntrySegment.alternatives? =
                alternatives :: rest.filterMap EntrySegment.alternatives? := rfl
          rw [List.cons_append, List.append_cons, choices_group longer here, combinations_lead,
            combinations_group, moreGroups, choiceLists]
          simp only [List.nil_append] at later
          simp [later, pieces, List.map_flatMap, Function.comp_def]

theorem expandEntry_eq (entry : DatabaseEntry) :
    expandEntry entry.text = (choiceLists entry.groups).map entry.filled := by
  have accepted : TextFormat.databaseEntry.accepts entry.text = true :=
    databaseEntry_accepts_iff.mpr ⟨entry, rfl⟩
  have noGroup : '\x7b' ∉ entry.head := entry.isHead.isRun.notMem (by decide)
  rw [expandEntry, if_pos accepted, DatabaseEntry.text, String.toList_ofList, intercalate_cons,
    combinations_choices entry.valid noGroup, List.map_map]
  refine List.map_congr_left fun choice _ => ?_
  rw [Function.comp_apply, DatabaseEntry.filled, intercalate_cons]

theorem expandEntry_of_refused {text : String}
    (refused : TextFormat.databaseEntry.accepts text = false) : expandEntry text = [text] := by
  unfold expandEntry
  rw [refused, if_neg Bool.false_ne_true]

/-- However a text is read as a database entry, it expands to one result for every choice, and the results
stand in the lexicographic order of the choices.  A text that is no database entry stays as it is. -/
theorem expandEntry_isProduct (text : String) :
    (TextFormat.databaseEntry.accepts text = true ↔ ∃ entry : DatabaseEntry, entry.text = text) ∧
    (∀ entry : DatabaseEntry, entry.text = text →
      (∃ choices : List (List Nat), (∀ choice, choice ∈ choices ↔ entry.IsChoice choice) ∧
        choices.Pairwise (· < ·) ∧ expandEntry text = choices.map entry.filled) ∧
      (expandEntry text).length = (entry.groups.map List.length).prod ∧
      ∀ result ∈ expandEntry text, '\x7b' ∉ result.toList ∧ '\x7d' ∉ result.toList) ∧
    (TextFormat.databaseEntry.accepts text = false → expandEntry text = [text]) := by
  refine ⟨databaseEntry_accepts_iff, ?_, expandEntry_of_refused⟩
  rintro entry rfl
  rw [expandEntry_eq]
  refine ⟨⟨choiceLists entry.groups, fun _ => mem_choiceLists_iff, choiceLists_sorted _, rfl⟩, ?_, ?_⟩
  · rw [List.length_map, length_choiceLists]
  · intro result membership
    obtain ⟨choice, inLists, rfl⟩ := List.mem_map.mp membership
    have isChoice : entry.IsChoice choice := mem_choiceLists_iff.mp inLists
    exact ⟨entry.notMem_filled isChoice (by decide), entry.notMem_filled isChoice (by decide)⟩

theorem expandEntry_isProduct_twoGroups :
    ∃ entry : DatabaseEntry, entry.text = "jb2a.\x7ba,b\x7d.x.\x7b1,2\x7d" ∧
      (expandEntry entry.text).length = 2 * 2 ∧ entry.filled [1, 0] = "jb2a.b.x.1" ∧
      TextFormat.databaseEntry.accepts "jb2a" = false ∧ expandEntry "jb2a" = ["jb2a"] := by
  have refused : TextFormat.databaseEntry.accepts "jb2a" = false := by decide
  exact ⟨⟨"jb2a".toList, [.group ["a".toList, "b".toList], .word "x".toList,
    .group ["1".toList, "2".toList]], ⟨'j', "b2a".toList, rfl, by decide, by decide⟩,
    List.cons_ne_nil _ _, by decide⟩, by decide, ((expandEntry_isProduct _).2.1 _ rfl).2.1,
    by decide, refused, (expandEntry_isProduct "jb2a").2.2 refused⟩

end AnimationGrammar
