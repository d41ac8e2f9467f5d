import AnimationGrammar.Proofs.Text.Pieces

/-!
Database entries, taken apart.

A database entry is a head and segments joined by dots, and each segment is a plain word or a group of
alternatives between braces.  A text is accepted exactly when it can be read in this way.
-/

namespace AnimationGrammar

open Pattern TextFormat

/-! ### Characters and runs of them -/

def isEntryChar (c : Char) : Bool := isWordChar c || '-' == c

/-- The characters that set off a group and its alternatives. -/
def groupMarks : List Char := ['\x7b', '\x7d', ',']

def isFreeChar (c : Char) : Bool := c ∉ groupMarks

theorem isEntryChar_of_isWordChar {c : Char} (word : isWordChar c = true) : isEntryChar c = true := by
  unfold isEntryChar
  rw [word, Bool.true_or]

theorem isFreeChar_of_isEntryChar {c : Char} (plain : isEntryChar c = true) : isFreeChar c = true := by
  unfold isFreeChar
  rw [decide_eq_true_eq]
  exact notMem_marks (by decide) plain

theorem isFreeChar_brace {brace : Char} (isBrace : brace ∈ ['\x7b', '\x7d']) :
    isFreeChar brace = false ∧ brace ≠ ',' ∧ brace ≠ '.' := by
  rw [List.mem_cons, List.mem_singleton] at isBrace
  rcases isBrace with rfl | rfl
  · decide
  · decide

theorem mem_word_iff {text : List Char} :
    text ∈ (plus wordChar).language ↔ IsRunOf isWordChar text :=
  mem_run_iff fun c => by simp [CharSet.contains, CharItem.contains]

theorem mem_plainWord_iff {text : List Char} :
    text ∈ (plus entryChar).language ↔ IsRunOf isEntryChar text :=
  mem_run_iff fun c => by simp [CharSet.contains, CharItem.contains, isEntryChar]

theorem mem_freeText_iff {text : List Char} :
    text ∈ (plus (one ⟨groupMarks.map .char, true⟩)).language ↔ IsRunOf isFreeChar text := by
  refine mem_run_iff fun c => ?_
  simp only [CharSet.contains, isFreeChar, groupMarks, List.any_map, List.mem_cons]
  grind [CharItem.contains]

/-! ### Groups and segments -/

/-- A word and at least one more alternative.  All alternatives but the first are free texts. -/
inductive IsGroup : List (List Char) → Prop
  | alternatives {first others} : IsRunOf isWordChar first → others ≠ [] →
      (∀ other ∈ others, IsRunOf isFreeChar other) → IsGroup (first :: others)

theorem isGroup_cons_iff {first : List Char} {others : List (List Char)} :
    IsGroup (first :: others) ↔ IsRunOf isWordChar first ∧ others ≠ [] ∧
      ∀ other ∈ others, IsRunOf isFreeChar other := by
  constructor
  · rintro ⟨isWord, given, free⟩
    exact ⟨isWord, given, free⟩
  · rintro ⟨isWord, given, free⟩
    exact .alternatives isWord given free

instance : DecidablePred IsGroup
  | [] => isFalse nofun
  | _ :: _ => decidable_of_iff _ isGroup_cons_iff.symm

inductive EntrySegment
  | word (text : List Char)
  | group (alternatives : List (List Char))

namespace EntrySegment

def IsValid : EntrySegment → Prop
  | word text => IsRunOf isEntryChar text
  | group alternatives => IsGroup alternatives

instance : DecidablePred IsValid
  | word text => inferInstanceAs (Decidable (IsRunOf isEntryChar text))
  | group alternatives => inferInstanceAs (Decidable (IsGroup alternatives))

def text : EntrySegment → List Char
  | word text => text
  | group alternatives => '\x7b' :: [','].intercalate alternatives ++ ['\x7d']

def alternatives? : EntrySegment → Option (List (List Char))
  | word _ => none
  | group alternatives => some alternatives

end EntrySegment

theorem IsGroup.isRun {alternatives : List (List Char)} (isGroup : IsGroup alternatives) :
    ∀ alternative ∈ alternatives, IsRunOf isFreeChar alternative := by
  obtain ⟨word, -, free⟩ := isGroup
  rw [List.forall_mem_cons]
  refine ⟨word.imp fun c isWord => ?_, free⟩
  apply isFreeChar_of_isEntryChar
  exact isEntryChar_of_isWordChar isWord

theorem IsGroup.two_le_length {alternatives : List (List Char)} (isGroup : IsGroup alternatives) :
    2 ≤ alternatives.length := by
  obtain ⟨-, given, -⟩ := isGroup
  have counted := List.length_pos_iff.mpr given
  rw [List.length_cons]
  omega

theorem mem_alternativesPattern_iff {text : List Char} :
    text ∈ alternativesPattern.language ↔
      ∃ alternatives, IsGroup alternatives ∧ (EntrySegment.group alternatives).text = text := by
  unfold alternativesPattern
  rw [mem_marked_iff]
  constructor
  · rintro ⟨_, ⟨first, isFirst, _, ⟨_, areOthers, _, isClosed, rfl⟩, rfl⟩, rfl⟩
    obtain ⟨others, given, free, rfl⟩ := mem_plus_marked_iff.mp areOthers
    refine ⟨first :: others, .alternatives (mem_word_iff.mp isFirst) given ?_, ?_⟩
    · exact fun other membership => mem_freeText_iff.mp (free other membership)
    · rw [EntrySegment.text, intercalate_cons, mem_char_iff.mp isClosed]
      simp
  · rintro ⟨alternatives, isGroup, rfl⟩
    obtain _ | ⟨first, others⟩ := alternatives
    · nomatch isGroup
    obtain ⟨isFirst, given, free⟩ := isGroup_cons_iff.mp isGroup
    have areOthers : others.flatMap (',' :: ·) ∈
        (plus (seq (char ',') (plus (one ⟨groupMarks.map .char, true⟩)))).language :=
      mem_plus_marked_iff.mpr ⟨others, given,
        fun other membership => mem_freeText_iff.mpr (free other membership), rfl⟩
    refine ⟨_, ⟨first, mem_word_iff.mpr isFirst, _,
      ⟨_, areOthers, ['\x7d'], mem_char_iff.mpr rfl, rfl⟩, rfl⟩, ?_⟩
    rw [EntrySegment.text, intercalate_cons]
    simp

theorem mem_segment_iff {text : List Char} :
    text ∈ (alt (plus entryChar) alternativesPattern).language ↔
      ∃ segment : EntrySegment, segment.IsValid ∧ segment.text = text := by
  rw [mem_alt_iff, mem_plainWord_iff, mem_alternativesPattern_iff]
  constructor
  · rintro (plain | ⟨alternatives, isGroup, rfl⟩)
    · exact ⟨.word text, plain, rfl⟩
    · exact ⟨.group alternatives, isGroup, rfl⟩
  · rintro ⟨segment, valid, rfl⟩
    cases segment with
    | word text => exact .inl valid
    | group alternatives => exact .inr ⟨alternatives, valid, rfl⟩

/-! ### Entries -/

/-- The first part of an entry, of at least two characters. -/
def IsEntryHead (head : List Char) : Prop :=
  ∃ first rest, head = first :: rest ∧ isWordChar first = true ∧ IsRunOf isEntryChar rest

theorem IsEntryHead.isRun {head : List Char} (isHead : IsEntryHead head) :
    IsRunOf isEntryChar head := by
  obtain ⟨first, rest, rfl, isWord, run⟩ := isHead
  refine ⟨List.cons_ne_nil first rest, ?_⟩
  rw [List.forall_mem_cons]
  exact ⟨isEntryChar_of_isWordChar isWord, run.2⟩

/-- A database entry. -/
structure DatabaseEntry where
  head : List Char
  segments : List EntrySegment
  isHead : IsEntryHead head
  given : segments ≠ []
  valid : ∀ segment ∈ segments, segment.IsValid

namespace DatabaseEntry

def text (entry : DatabaseEntry) : String :=
  String.ofList (['.'].intercalate (entry.head :: entry.segments.map EntrySegment.text))

/-- What the groups of an entry offer, from the first group to the last. -/
def groups (entry : DatabaseEntry) : List (List (List Char)) :=
  entry.segments.filterMap EntrySegment.alternatives?

end DatabaseEntry

theorem mem_databaseEntryPattern_iff {text : List Char} :
    text ∈ databaseEntryPattern.language ↔
      ∃ entry : DatabaseEntry, entry.text.toList = text := by
  unfold databaseEntryPattern
  rw [mem_wordThen_iff]
  constructor
  · rintro ⟨first, _, rfl, isWord, rest, isRest, _, areSegments, rfl⟩
    obtain ⟨pieces, given, inPattern, rfl⟩ := mem_plus_marked_iff.mp areSegments
    have split : ∀ piece ∈ pieces, ∃ segment : EntrySegment, segment.IsValid ∧ segment.text = piece :=
      fun piece membership => mem_segment_iff.mp (inPattern piece membership)
    obtain ⟨segments, rfl, valid⟩ := exists_map_eq split
    refine ⟨⟨first :: rest, segments, ⟨first, rest, rfl, isWord, mem_plainWord_iff.mp isRest⟩,
      by simpa using given, valid⟩, ?_⟩
    rw [DatabaseEntry.text, String.toList_ofList, intercalate_cons]
    rfl
  · rintro ⟨⟨_, segments, ⟨first, rest, rfl, isWord, run⟩, given, valid⟩, rfl⟩
    have areSegments : (segments.map EntrySegment.text).flatMap ('.' :: ·) ∈
        (plus (seq (char '.') (alt (plus entryChar) alternativesPattern))).language := by
      refine mem_plus_marked_iff.mpr ⟨segments.map EntrySegment.text, by simpa using given, ?_, rfl⟩
      intro piece membership
      obtain ⟨segment, inSegments, rfl⟩ := List.mem_map.mp membership
      exact mem_segment_iff.mpr ⟨segment, valid segment inSegments, rfl⟩
    refine ⟨first, _, ?_, isWord, rest, mem_plainWord_iff.mpr run, _, areSegments, rfl⟩
    rw [DatabaseEntry.text, String.toList_ofList, intercalate_cons]
    rfl

/-- A text is accepted as a database entry exactly when it can be read as one. -/
theorem databaseEntry_accepts_iff {text : String} :
    TextFormat.databaseEntry.accepts text = true ↔ ∃ entry : DatabaseEntry, entry.text = text := by
  rw [accepts, pattern, matchesWhole_iff, mem_anchored_iff, mem_databaseEntryPattern_iff]
  simp only [String.toList_inj]

end AnimationGrammar
