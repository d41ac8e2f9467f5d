import AnimationGrammar.Proofs.Text.Pieces
import AnimationGrammar.Text.Format

/-!
File paths, taken apart.

The class of the components holds dots and word characters too, so a pattern can be cut in several ways in
front of an extension.  Splitting at the slashes is not open to this: no component holds one, and what is
asked of the last component is asked of it as a whole.
-/

namespace AnimationGrammar

open Pattern TextFormat

/-! ### Components -/

/-- The characters that some file system does not allow in a name. -/
def unsafeChars : List Char := ['"', ':', '<', '>', '?', '\\', '|']

def IsComponent (text : List Char) : Prop := text ≠ [] ∧ ∀ c ∈ text, c ∉ unsafeChars

/-- Three or four word characters. -/
def IsExtension (text : List Char) : Prop :=
  (text.length = 3 ∨ text.length = 4) ∧ ∀ c ∈ text, isWordChar c = true

def IsPathHead (text : List Char) : Prop :=
  ∃ first rest, text = first :: rest ∧ isWordChar first = true ∧ rest ≠ []

def IsFileName (text : List Char) : Prop :=
  ∃ stem extension, text = stem ++ '.' :: extension ∧ stem ≠ [] ∧ IsExtension extension

/-- The components of a file path, of which there are two or more. -/
def IsFilePath (components : List (List Char)) : Prop :=
  (∀ component ∈ components, IsComponent component) ∧
    ∃ head middle name, components = head :: (middle ++ [name]) ∧ IsPathHead head ∧ IsFileName name

/-! ### The patterns of components -/

def isFileNameChar (c : Char) : Bool := c ∉ unsafeChars ++ ['/']

theorem isFileNameChar_of_isWordChar {c : Char} (word : isWordChar c = true) :
    isFileNameChar c = true := by
  unfold isFileNameChar
  rw [decide_eq_true_eq]
  exact notMem_marks (by decide) word

theorem isRun_fileNameChar_iff {text : List Char} :
    IsRunOf isFileNameChar text ↔ IsComponent text ∧ '/' ∉ text := by
  unfold IsRunOf IsComponent isFileNameChar
  simp only [decide_eq_true_eq, List.mem_append, List.mem_singleton, not_or]
  rw [and_assoc, and_congr_right_iff]
  intro _
  constructor
  · exact fun each => ⟨fun c inside => (each c inside).1, fun slash => (each '/' slash).2 rfl⟩
  · rintro ⟨each, noSlash⟩ c inside
    exact ⟨each c inside, fun isSlash => noSlash (isSlash ▸ inside)⟩

theorem mem_component_iff {text : List Char} :
    text ∈ (plus fileNameChar).language ↔ IsRunOf isFileNameChar text := by
  refine mem_run_iff fun c => ?_
  simp only [CharSet.contains, isFileNameChar, unsafeChars, List.any_map, List.mem_append, List.mem_cons]
  grind [CharItem.contains]

theorem mem_extension_iff {text : List Char} :
    text ∈ (seq wordChar (seq wordChar (seq wordChar (optional wordChar)))).language ↔
      IsExtension text := by
  simp only [mem_wordThen_iff, mem_optional_iff, mem_wordChar_iff]
  constructor
  · rintro ⟨a, _, rfl, first, b, _, rfl, second, c, _, rfl, third, rfl | ⟨d, rfl, fourth⟩⟩
    · simp [IsExtension, first, second, third]
    · simp [IsExtension, first, second, third, fourth]
  · rintro ⟨size | size, words⟩
    · obtain ⟨a, b, c, rfl⟩ := List.length_eq_three.mp size
      simp only [List.forall_mem_cons] at words
      obtain ⟨first, second, third, -⟩ := words
      exact ⟨a, _, rfl, first, b, _, rfl, second, c, _, rfl, third, .inl rfl⟩
    · obtain ⟨a, b, c, d, rfl⟩ := List.length_eq_four.mp size
      simp only [List.forall_mem_cons] at words
      obtain ⟨first, second, third, fourth, -⟩ := words
      exact ⟨a, _, rfl, first, b, _, rfl, second, c, _, rfl, third, .inr ⟨d, rfl, fourth⟩⟩

/-! The word characters in front and the extension add nothing to what a component has to be. -/

theorem isRun_pathHead {first : Char} {rest : List Char} (given : rest ≠ [])
    (isWord : isWordChar first = true) :
    IsRunOf isFileNameChar (first :: rest) ↔ IsRunOf isFileNameChar rest := by
  simp [IsRunOf, given, isFileNameChar_of_isWordChar isWord]

theorem isRun_fileName {stem extension : List Char} (given : stem ≠ [])
    (isExtension : IsExtension extension) :
    IsRunOf isFileNameChar (stem ++ '.' :: extension) ↔ IsRunOf isFileNameChar stem := by
  have words : ∀ c ∈ extension, isFileNameChar c = true :=
    fun c inside => isFileNameChar_of_isWordChar (isExtension.2 c inside)
  have dot : isFileNameChar '.' = true := by decide
  have each : (∀ c ∈ stem ++ '.' :: extension, isFileNameChar c = true) ↔
      ∀ c ∈ stem, isFileNameChar c = true := by
    rw [List.forall_mem_append, List.forall_mem_cons, and_iff_left ⟨dot, words⟩]
  rw [IsRunOf, IsRunOf, each]
  simp [given]

/-! ### Paths -/

theorem mem_filePathPattern_iff {text : List Char} :
    text ∈ filePathPattern.language ↔ ∃ head middle name, IsPathHead head ∧ IsFileName name ∧
      (∀ component ∈ head :: (middle ++ [name]), IsRunOf isFileNameChar component) ∧
      head ++ (middle ++ [name]).flatMap ('/' :: ·) = text := by
  unfold filePathPattern
  rw [mem_wordThen_iff]
  constructor
  · rintro ⟨first, _, rfl, isWord, rest, isRest, _, ⟨_, areOthers, _, isEnd, rfl⟩, rfl⟩
    obtain ⟨others, given, inPattern, rfl⟩ := mem_plus_marked_iff.mp areOthers
    obtain ⟨extension, isExtension, rfl⟩ := mem_marked_iff.mp isEnd
    rcases List.eq_nil_or_concat others with rfl | ⟨middle, stem, rfl⟩
    · exact absurd rfl given
    rw [List.concat_eq_append, List.forall_mem_append, List.forall_mem_singleton] at inPattern
    have isExtension := mem_extension_iff.mp isExtension
    have restRun := mem_component_iff.mp isRest
    have stemRun := mem_component_iff.mp inPattern.2
    refine ⟨first :: rest, middle, stem ++ '.' :: extension, ⟨first, rest, rfl, isWord, restRun.1⟩,
      ⟨stem, extension, rfl, stemRun.1, isExtension⟩, ?_, by simp⟩
    simp only [List.forall_mem_cons, List.forall_mem_append]
    exact ⟨(isRun_pathHead restRun.1 isWord).mpr restRun,
      fun piece inMiddle => mem_component_iff.mp (inPattern.1 piece inMiddle),
      (isRun_fileName stemRun.1 isExtension).mpr stemRun, nofun⟩
  · rintro ⟨_, middle, _, ⟨first, rest, rfl, isWord, given⟩,
      ⟨stem, extension, rfl, stemGiven, isExtension⟩, runs, rfl⟩
    simp only [List.forall_mem_cons, List.forall_mem_append] at runs
    obtain ⟨headRun, middleRuns, nameRun, -⟩ := runs
    have areOthers : (middle ++ [stem]).flatMap ('/' :: ·) ∈
        (plus (seq (char '/') (plus fileNameChar))).language := by
      refine mem_plus_marked_iff.mpr ⟨middle ++ [stem], by simp, ?_, rfl⟩
      rw [List.forall_mem_append, List.forall_mem_singleton]
      exact ⟨fun piece inMiddle => mem_component_iff.mpr (middleRuns piece inMiddle),
        mem_component_iff.mpr ((isRun_fileName stemGiven isExtension).mp nameRun)⟩
    have isRest := mem_component_iff.mpr ((isRun_pathHead given isWord).mp headRun)
    refine ⟨first, _, ?_, isWord, rest, isRest, _, ⟨_, areOthers, '.' :: extension, ?_, rfl⟩, rfl⟩
    · simp
    · exact mem_marked_iff.mpr ⟨extension, mem_extension_iff.mpr isExtension, rfl⟩

/-- A text is accepted as a file path exactly when its components between slashes are those of one. -/
theorem filePath_accepts_iff {text : String} :
    TextFormat.filePath.accepts text = true ↔ IsFilePath (text.toList.splitOn '/') := by
  rw [accepts, pattern, matchesWhole_iff, mem_anchored_iff, mem_filePathPattern_iff]
  constructor
  · rintro ⟨head, middle, name, isHead, isName, runs, joined⟩
    have each := fun component membership => isRun_fileNameChar_iff.mp (runs component membership)
    rw [← joined, splitOn_joined fun component membership => (each component membership).2]
    exact ⟨fun component membership => (each component membership).1, head, middle, name, rfl, isHead,
      isName⟩
  · rintro ⟨each, head, middle, name, split, isHead, isName⟩
    refine ⟨head, middle, name, isHead, isName, fun component membership => ?_, joined_of_splitOn split⟩
    rw [← split] at membership
    exact isRun_fileNameChar_iff.mpr ⟨each component membership, notMem_of_mem_splitOn membership⟩

example : ["art/fire.v2.webp", "a/fire.webp", "art/.webp"].map TextFormat.filePath.accepts =
    [true, false, false] := by decide

end AnimationGrammar
