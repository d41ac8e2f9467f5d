import AnimationGrammar.Proofs.Playback.Expansion
import AnimationGrammar.Proofs.Text.FilePath
import Mathlib.Algebra.BigOperators.Ring.List
import Mathlib.Algebra.GroupWithZero.Nat

/-!
What expansion makes of the assets of an effect.

The alternatives of a group are free texts from the second one on.  A slash in one of them makes a file
path out of a database entry, and anything but a dotted word leads out of the language of entries.
-/

namespace AnimationGrammar

/-! ### File paths -/

theorem slash_mem_of_filePath {text : String} (isPath : TextFormat.filePath.accepts text = true) :
    '/' ∈ text.toList := by
  obtain ⟨-, head, middle, name, split, -⟩ := filePath_accepts_iff.mp isPath
  by_contra noSlash
  rw [List.splitOn_eq_singleton noSlash] at split
  simp at split

theorem mem_alternatives_iff {segments : List EntrySegment} {alternatives : List (List Char)} :
    alternatives ∈ segments.filterMap EntrySegment.alternatives? ↔
      EntrySegment.group alternatives ∈ segments := by
  rw [List.mem_filterMap]
  constructor
  · rintro ⟨segment, membership, offered⟩
    cases segment with
    | word text => nomatch offered
    | group others =>
        cases offered
        exact membership
  · intro membership
    exact ⟨.group alternatives, membership, rfl⟩

theorem areGroups_of_valid {segments : List EntrySegment}
    (valid : ∀ segment ∈ segments, segment.IsValid) :
    ∀ alternatives ∈ segments.filterMap EntrySegment.alternatives?, IsGroup alternatives :=
  fun _ isOffered => valid _ (mem_alternatives_iff.mp isOffered)

namespace DatabaseEntry

theorem mem_groups_iff (entry : DatabaseEntry) {alternatives : List (List Char)} :
    alternatives ∈ entry.groups ↔ EntrySegment.group alternatives ∈ entry.segments :=
  mem_alternatives_iff

/-- Between the groups of an entry stand plain words and dots. -/
theorem groups_ne_nil_of_mem (entry : DatabaseEntry) {c : Char} (membership : c ∈ entry.text.toList)
    (notPlain : isEntryChar c = false) (notDot : c ≠ '.') : entry.groups ≠ [] := by
  rw [text, String.toList_ofList] at membership
  rcases mem_intercalate membership with isDot | ⟨part, inEntry, inPart⟩
  · exact absurd isDot notDot
  rcases List.mem_cons.mp inEntry with rfl | inParts
  · exact absurd inPart (entry.isHead.isRun.notMem notPlain)
  obtain ⟨segment, inSegments, rfl⟩ := List.mem_map.mp inParts
  cases segment with
  | word text =>
      have isWord : IsRunOf isEntryChar text := entry.valid _ inSegments
      exact absurd inPart (isWord.notMem notPlain)
  | group alternatives => exact List.ne_nil_of_mem (entry.mem_groups_iff.mpr inSegments)

theorem brace_mem_of_group (entry : DatabaseEntry) (given : entry.groups ≠ []) :
    '\x7b' ∈ entry.text.toList := by
  obtain ⟨alternatives, isOffered⟩ := List.exists_mem_of_ne_nil entry.groups given
  have inSegments := entry.mem_groups_iff.mp isOffered
  rw [text, String.toList_ofList, intercalate_cons, List.mem_append, List.mem_flatMap]
  refine .inr ⟨_, List.mem_map_of_mem inSegments, ?_⟩
  simp [EntrySegment.text]

theorem two_le_length_expand (entry : DatabaseEntry) (given : entry.groups ≠ []) :
    2 ≤ (expandEntry entry.text).length := by
  have sizes : ∀ size ∈ entry.groups.map List.length, 2 ≤ size := by
    intro size membership
    obtain ⟨alternatives, isOffered, rfl⟩ := List.mem_map.mp membership
    exact (areGroups_of_valid entry.valid alternatives isOffered).two_le_length
  rw [expandEntry_eq, List.length_map, length_choiceLists]
  cases listed : entry.groups.map List.length with
  | nil => exact absurd (List.map_eq_nil_iff.mp listed) given
  | cons size others =>
      rw [listed, List.forall_mem_cons] at sizes
      have positive : 0 < others.prod := by
        apply Nat.pos_of_ne_zero
        rw [Ne, List.prod_eq_zero_iff]
        intro empty
        exact absurd (sizes.2 0 empty) (by decide)
      rw [List.prod_cons]
      exact le_trans sizes.1 (Nat.le_mul_of_pos_right size positive)

theorem groups_ne_nil_of_filePath (entry : DatabaseEntry)
    (isPath : TextFormat.filePath.accepts entry.text = true) : entry.groups ≠ [] :=
  entry.groups_ne_nil_of_mem (slash_mem_of_filePath isPath) (by decide) (by decide)

end DatabaseEntry

/-- A file path that is a database entry as well stands for several texts. -/
theorem two_le_length_expand_of_filePath {text : String}
    (isPath : TextFormat.filePath.accepts text = true)
    (isEntry : TextFormat.databaseEntry.accepts text = true) : 2 ≤ (expandEntry text).length := by
  obtain ⟨entry, rfl⟩ := databaseEntry_accepts_iff.mp isEntry
  apply entry.two_le_length_expand
  exact entry.groups_ne_nil_of_filePath isPath

theorem expandEntry_filePath_iff {text : String} (isPath : TextFormat.filePath.accepts text = true) :
    expandEntry text = [text] ↔ TextFormat.databaseEntry.accepts text = false := by
  constructor
  · intro kept
    by_contra isEntry
    have several :=
      two_le_length_expand_of_filePath isPath (Bool.eq_true_of_not_eq_false isEntry)
    rw [kept, List.length_singleton] at several
    omega
  · exact expandEntry_of_refused

theorem expandEntry_length_pos (text : String) : 0 < (expandEntry text).length := by
  by_cases isEntry : TextFormat.databaseEntry.accepts text = true
  · obtain ⟨entry, rfl⟩ := databaseEntry_accepts_iff.mp isEntry
    by_cases grouped : entry.groups = []
    · rw [expandEntry_eq, grouped]
      exact Nat.zero_lt_one
    · exact lt_of_lt_of_le Nat.zero_lt_two (entry.two_le_length_expand grouped)
  · rw [expandEntry_of_refused (Bool.eq_false_of_not_eq_true isEntry)]
    exact Nat.zero_lt_one

theorem length_le_expandFiles (files : List String) : files.length ≤ (expandFiles files).length := by
  induction files with
  | nil => exact le_rfl
  | cons file rest inductionHypothesis =>
      have here := expandEntry_length_pos file
      have later : rest.length ≤ (rest.flatMap expandEntry).length := inductionHypothesis
      rw [expandFiles, List.flatMap_cons, List.length_append, List.length_cons]
      omega

theorem expandFiles_filePaths_iff {files : List String}
    (arePaths : ∀ file ∈ files, TextFormat.filePath.accepts file = true) :
    expandFiles files = files ↔ ∀ file ∈ files, TextFormat.databaseEntry.accepts file = false := by
  induction files with
  | nil => simp [expandFiles]
  | cons file rest inductionHypothesis =>
      rw [List.forall_mem_cons] at arePaths
      have split : expandFiles (file :: rest) = expandEntry file ++ expandFiles rest := rfl
      rw [List.forall_mem_cons, ← inductionHypothesis arePaths.2,
        ← expandEntry_filePath_iff arePaths.1, split]
      constructor
      · intro kept
        by_cases isEntry : TextFormat.databaseEntry.accepts file = true
        · have several := two_le_length_expand_of_filePath arePaths.1 isEntry
          have others := length_le_expandFiles rest
          have counted := congrArg List.length kept
          rw [List.length_append, List.length_cons] at counted
          omega
        · have here := expandEntry_of_refused (Bool.eq_false_of_not_eq_true isEntry)
          rw [here, List.singleton_append, List.cons_inj_right] at kept
          exact ⟨here, kept⟩
      · rintro ⟨here, later⟩
        rw [here, later, List.singleton_append]

/-- File paths stay as they are, one by one and in a list, exactly when none of them can be read as a
database entry, and none without an opening brace can. -/
theorem filePaths_kept_iff {files : List String}
    (arePaths : ∀ file ∈ files, TextFormat.filePath.accepts file = true) :
    (∀ file ∈ files,
      (expandEntry file = [file] ↔ TextFormat.databaseEntry.accepts file = false) ∧
      ('\x7b' ∉ file.toList → expandEntry file = [file])) ∧
    (expandFiles files = files ↔
      ∀ file ∈ files, TextFormat.databaseEntry.accepts file = false) := by
  refine ⟨fun file membership => ⟨expandEntry_filePath_iff (arePaths file membership), ?_⟩,
    expandFiles_filePaths_iff arePaths⟩
  intro noBrace
  rw [expandEntry_filePath_iff (arePaths file membership)]
  by_contra isEntry
  obtain ⟨entry, rfl⟩ := databaseEntry_accepts_iff.mp (Bool.eq_true_of_not_eq_false isEntry)
  apply noBrace
  apply entry.brace_mem_of_group
  exact entry.groups_ne_nil_of_filePath (arePaths entry.text membership)

theorem filePaths_kept_module :
    expandFiles ["modules/\x7ba,b\x7d/bolt.webm"] = ["modules/\x7ba,b\x7d/bolt.webm"] := by
  refine ((filePaths_kept_iff ?_).2).mpr ?_
  · decide
  · decide

/-- A slash in an alternative makes a file path that is not kept. -/
theorem not_filePath_kept_slash :
    TextFormat.filePath.accepts "jb2a.\x7ba,b/c\x7d.fire" = true ∧
      expandEntry "jb2a.\x7ba,b/c\x7d.fire" = ["jb2a.a.fire", "jb2a.b/c.fire"] := by
  decide

/-! ### Expanded entries -/

def IsDottedWord (text : List Char) : Prop := ∀ word ∈ text.splitOn '.', IsRunOf isEntryChar word

instance : DecidablePred IsDottedWord := fun text =>
  inferInstanceAs (Decidable (∀ word ∈ text.splitOn '.', IsRunOf isEntryChar word))

theorem IsRunOf.isDottedWord {text : List Char} (run : IsRunOf isEntryChar text) :
    IsDottedWord text := by
  unfold IsDottedWord
  rw [List.splitOn_eq_singleton (run.notMem (by decide)), List.forall_mem_singleton]
  exact run

theorem splitOn_intercalate_flatMap {mark : Char} {parts : List (List Char)} (given : parts ≠ []) :
    ([mark].intercalate parts).splitOn mark = parts.flatMap (·.splitOn mark) := by
  obtain ⟨first, others, rfl⟩ := List.exists_cons_of_ne_nil given
  induction others generalizing first with
  | nil => simp
  | cons second others inductionHypothesis =>
      rw [List.intercalate_cons_cons, List.append_assoc, List.singleton_append,
        List.splitOn_append_cons_self, inductionHypothesis second (List.cons_ne_nil _ _)]
      rfl

/-- A text without braces is an entry exactly when it is a head and words between dots. -/
theorem accepts_iff_of_noBrace {text : String} (noBrace : '\x7b' ∉ text.toList) :
    TextFormat.databaseEntry.accepts text = true ↔
      ∃ head words, text.toList.splitOn '.' = head :: words ∧ IsEntryHead head ∧ words ≠ [] ∧
        ∀ word ∈ words, IsRunOf isEntryChar word := by
  rw [databaseEntry_accepts_iff]
  constructor
  · rintro ⟨entry, rfl⟩
    have ungrouped : entry.groups = [] := by
      by_contra given
      exact noBrace (entry.brace_mem_of_group given)
    have areWords : ∀ segment ∈ entry.segments, IsRunOf isEntryChar segment.text := by
      intro segment membership
      cases segment with
      | word text => exact entry.valid _ membership
      | group alternatives =>
          have isOffered := entry.mem_groups_iff.mpr membership
          rw [ungrouped] at isOffered
          nomatch isOffered
    refine ⟨entry.head, entry.segments.map EntrySegment.text, ?_, entry.isHead,
      by simpa using entry.given, List.forall_mem_map.mpr areWords⟩
    rw [DatabaseEntry.text, String.toList_ofList]
    apply List.splitOn_intercalate _ _ (List.cons_ne_nil _ _)
    rw [List.forall_mem_cons]
    refine ⟨entry.isHead.isRun.notMem (by decide), List.forall_mem_map.mpr ?_⟩
    exact fun segment membership => (areWords segment membership).notMem (by decide)
  · rintro ⟨head, words, cut, isHead, given, areWords⟩
    refine ⟨⟨head, words.map EntrySegment.word, isHead, by simpa using given,
      List.forall_mem_map.mpr areWords⟩, ?_⟩
    have sameWords : (words.map EntrySegment.word).map EntrySegment.text = words := by
      rw [List.map_map]
      exact List.map_id words
    rw [DatabaseEntry.text, sameWords, ← cut, List.intercalate_splitOn, String.ofList_toList]

namespace DatabaseEntry

/-- A result is an entry exactly when its parts are dotted words. -/
theorem filled_accepts_iff (entry : DatabaseEntry) {choice : List Nat}
    (isChoice : entry.IsChoice choice) :
    TextFormat.databaseEntry.accepts (entry.filled choice) = true ↔
      ∀ piece ∈ pieces entry.segments choice, IsDottedWord piece := by
  have given : pieces entry.segments choice ≠ [] := by
    obtain ⟨segment, rest, listed⟩ := List.exists_cons_of_ne_nil entry.given
    rw [listed]
    cases segment <;> exact List.cons_ne_nil _ _
  have cut : (entry.filled choice).toList.splitOn '.' =
      entry.head :: (pieces entry.segments choice).flatMap (·.splitOn '.') := by
    rw [filled, String.toList_ofList, splitOn_intercalate_flatMap (List.cons_ne_nil _ _),
      List.flatMap_cons, List.splitOn_eq_singleton (entry.isHead.isRun.notMem (by decide)),
      List.singleton_append]
  rw [accepts_iff_of_noBrace (entry.notMem_filled isChoice (by decide)), cut]
  constructor
  · rintro ⟨head, words, same, -, -, areWords⟩ piece inPieces word inPiece
    rw [List.cons.injEq] at same
    rw [← same.2] at areWords
    exact areWords word (List.mem_flatMap_of_mem inPieces inPiece)
  · intro areDotted
    refine ⟨entry.head, _, rfl, entry.isHead, ?_, ?_⟩
    · rw [Ne, List.flatMap_eq_nil_iff]
      intro nothing
      obtain ⟨piece, membership⟩ := List.exists_mem_of_ne_nil _ given
      exact List.splitOn_ne_nil _ _ (nothing piece membership)
    · intro word membership
      obtain ⟨piece, inPieces, inPiece⟩ := List.mem_flatMap.mp membership
      exact areDotted piece inPieces word inPiece

end DatabaseEntry

theorem isChoiceFor_zeros {groups : List (List (List Char))}
    (areGroups : ∀ alternatives ∈ groups, IsGroup alternatives) :
    IsChoiceFor groups (groups.map fun _ => 0) := by
  unfold IsChoiceFor
  rw [List.forall₂_map_left_iff, List.forall₂_same]
  intro alternatives membership
  exact lt_of_lt_of_le Nat.zero_lt_two (areGroups alternatives membership).two_le_length

theorem exists_choice_of_mem {segments : List EntrySegment}
    (valid : ∀ segment ∈ segments, segment.IsValid) {alternatives : List (List Char)}
    (inSegments : EntrySegment.group alternatives ∈ segments) {alternative : List Char}
    (inGroup : alternative ∈ alternatives) :
    ∃ choice, IsChoiceFor (segments.filterMap EntrySegment.alternatives?) choice ∧
      alternative ∈ pieces segments choice := by
  induction segments with
  | nil => nomatch inSegments
  | cons segment rest inductionHypothesis =>
      have validRest := (List.forall_mem_cons.mp valid).2
      rcases List.mem_cons.mp inSegments with rfl | inRest
      · obtain ⟨index, below, rfl⟩ := List.getElem_of_mem inGroup
        refine ⟨index :: (rest.filterMap EntrySegment.alternatives?).map fun _ => 0,
          .cons below (isChoiceFor_zeros (areGroups_of_valid validRest)), ?_⟩
        rw [pieces, List.headD_cons, ← List.getElem_eq_getD (h := below)]
        exact List.mem_cons_self
      · obtain ⟨choice, isChoice, picked⟩ := inductionHypothesis validRest inRest
        cases segment with
        | word text => exact ⟨choice, isChoice, List.mem_cons_of_mem _ picked⟩
        | group others =>
            have isGroup : IsGroup others := valid _ List.mem_cons_self
            refine ⟨0 :: choice, .cons ?_ isChoice, List.mem_cons_of_mem _ picked⟩
            exact lt_of_lt_of_le Nat.zero_lt_two isGroup.two_le_length

/-- The results of an expansion are entries again exactly when every alternative of every group is
a dotted word. -/
theorem expandEntry_accepted_iff {text : String}
    (isEntry : TextFormat.databaseEntry.accepts text = true) :
    ∃ entry : DatabaseEntry, entry.text = text ∧
      ((∀ result ∈ expandEntry text, TextFormat.databaseEntry.accepts result = true) ↔
        ∀ alternatives ∈ entry.groups, ∀ alternative ∈ alternatives, IsDottedWord alternative) := by
  obtain ⟨entry, rfl⟩ := databaseEntry_accepts_iff.mp isEntry
  refine ⟨entry, rfl, ?_⟩
  rw [expandEntry_eq, List.forall_mem_map]
  constructor
  · intro areEntries alternatives isOffered alternative inGroup
    obtain ⟨choice, isChoice, picked⟩ :=
      exists_choice_of_mem entry.valid (entry.mem_groups_iff.mp isOffered) inGroup
    have isEntry := areEntries choice (mem_choiceLists_iff.mpr isChoice)
    exact (entry.filled_accepts_iff isChoice).mp isEntry alternative picked
  · intro areDotted choice inLists
    have isChoice : entry.IsChoice choice := mem_choiceLists_iff.mp inLists
    rw [entry.filled_accepts_iff isChoice]
    intro piece membership
    rcases mem_pieces isChoice membership with isWord | ⟨alternatives, isGroup, inGroup⟩
    · exact IsRunOf.isDottedWord (entry.valid _ isWord)
    · exact areDotted alternatives (entry.mem_groups_iff.mpr isGroup) piece inGroup

theorem expandEntry_accepted_dottedWord :
    ∃ entry : DatabaseEntry, entry.text = "jb2a.\x7bfire,ice.blue\x7d.bolt" ∧
      ((∀ result ∈ expandEntry "jb2a.\x7bfire,ice.blue\x7d.bolt",
        TextFormat.databaseEntry.accepts result = true) ↔
          ∀ alternatives ∈ entry.groups, ∀ alternative ∈ alternatives, IsDottedWord alternative) :=
  expandEntry_accepted_iff (by decide)

/-- A space in an alternative leads out of the language. -/
theorem not_expandEntry_accepted_space :
    TextFormat.databaseEntry.accepts "jb2a.\x7bfire,ice bolt\x7d" = true ∧
      "jb2a.ice bolt" ∈ expandEntry "jb2a.\x7bfire,ice bolt\x7d" ∧
      TextFormat.databaseEntry.accepts "jb2a.ice bolt" = false := by
  decide

end AnimationGrammar
