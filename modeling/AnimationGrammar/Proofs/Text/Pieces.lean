import AnimationGrammar.Text.Format
import AnimationGrammar.Proofs.Text.Language
import AnimationGrammar.Proofs.Value.Related
import Mathlib.Tactic.Common

/-!
Texts made of pieces.

Formats join their pieces by a mark: hyphens in a slug, slashes in a file path, dots in a database entry.
The pieces behind the first one are described by a pattern that repeats the mark together with a piece.
Where the mark stands in no piece, splitting a text at it finds its pieces again.
-/

namespace AnimationGrammar

open Pattern TextFormat

/-! ### Runs of characters -/

theorem IsRunOf.imp {first second : Char → Bool} {text : List Char} (run : IsRunOf first text)
    (each : ∀ c, first c = true → second c = true) : IsRunOf second text :=
  ⟨run.1, fun c membership => each c (run.2 c membership)⟩

theorem IsRunOf.notMem {isMember : Char → Bool} {text : List Char} (run : IsRunOf isMember text)
    {c : Char} (outside : isMember c = false) : c ∉ text := by
  intro membership
  rw [run.2 c membership] at outside
  exact Bool.false_ne_true outside.symm

theorem notMem_marks {isMember : Char → Bool} {marks : List Char} {c : Char}
    (apart : (marks.all fun mark => !isMember mark) = true) (inside : isMember c = true) : c ∉ marks := by
  intro membership
  have outside := List.all_eq_true.mp apart c membership
  rw [inside] at outside
  exact Bool.false_ne_true outside

/-- Where a run of a class of characters ends is seen in a text. -/
theorem run_append_inj {isMember : Char → Bool} {first second rest later : List Char}
    (inFirst : ∀ c ∈ first, isMember c = true) (inSecond : ∀ c ∈ second, isMember c = true)
    (ends : ∀ c ∈ rest.head?, isMember c = false) (alsoEnds : ∀ c ∈ later.head?, isMember c = false)
    (same : first ++ rest = second ++ later) : first = second ∧ rest = later := by
  have run {text tail : List Char} (inside : ∀ c ∈ text, isMember c = true)
      (ends : ∀ c ∈ tail.head?, isMember c = false) :
      (text ++ tail).takeWhile isMember = text ∧ (text ++ tail).dropWhile isMember = tail := by
    rw [List.takeWhile_append_of_pos inside, List.dropWhile_append_of_pos inside]
    cases tail with
    | nil => simp
    | cons c tail => simp [ends c rfl]
  obtain ⟨taken, dropped⟩ := run inFirst ends
  rw [same] at taken dropped
  obtain ⟨alsoTaken, alsoDropped⟩ := run inSecond alsoEnds
  exact ⟨taken.symm.trans alsoTaken, dropped.symm.trans alsoDropped⟩

theorem mem_char_iff {c : Char} {text : List Char} : text ∈ (char c).language ↔ text = [c] := by
  simp [char, mem_one_iff, CharSet.contains, CharItem.contains]

theorem mem_wordChar_iff {text : List Char} :
    text ∈ wordChar.language ↔ ∃ c, text = [c] ∧ isWordChar c = true := by
  simp [wordChar, mem_one_iff, CharSet.contains, CharItem.contains]

theorem mem_wordThen_iff {body : Pattern} {text : List Char} :
    text ∈ (seq wordChar body).language ↔
      ∃ c rest, text = c :: rest ∧ isWordChar c = true ∧ rest ∈ body.language := by
  rw [mem_seq_iff]
  constructor
  · rintro ⟨_, isFirst, rest, inBody, rfl⟩
    obtain ⟨c, rfl, word⟩ := mem_wordChar_iff.mp isFirst
    exact ⟨c, rest, rfl, word, inBody⟩
  · rintro ⟨c, rest, rfl, word, inBody⟩
    exact ⟨[c], mem_wordChar_iff.mpr ⟨c, rfl, word⟩, rest, inBody, rfl⟩

/-- A repeated set of characters, read as a class of them. -/
theorem mem_run_iff {set : CharSet} {isMember : Char → Bool} {text : List Char}
    (same : ∀ c, set.contains c = isMember c) :
    text ∈ (plus (one set)).language ↔ IsRunOf isMember text := by
  rw [mem_plus_one_iff, funext same]

/-! ### Pieces behind a mark -/

section
variable {mark : Char} {body : Pattern} {text : List Char}

theorem mem_marked_iff :
    text ∈ (seq (char mark) body).language ↔ ∃ rest ∈ body.language, mark :: rest = text := by
  rw [mem_seq_iff]
  constructor
  · rintro ⟨_, isMark, rest, inBody, rfl⟩
    rw [mem_char_iff.mp isMark, List.singleton_append]
    exact ⟨rest, inBody, rfl⟩
  · rintro ⟨rest, inBody, rfl⟩
    exact ⟨[mark], mem_char_iff.mpr rfl, rest, inBody, rfl⟩

theorem forall_marked_iff {parts : List (List Char)} :
    (∀ part ∈ parts, part ∈ (seq (char mark) body).language) ↔
      ∃ pieces : List (List Char), (∀ piece ∈ pieces, piece ∈ body.language) ∧
        pieces.map (mark :: ·) = parts := by
  constructor
  · intro each
    have split : ∀ part ∈ parts, ∃ piece, piece ∈ body.language ∧ mark :: piece = part :=
      fun part membership => mem_marked_iff.mp (each part membership)
    obtain ⟨pieces, rfl, inBody⟩ := exists_map_eq split
    exact ⟨pieces, inBody, rfl⟩
  · rintro ⟨pieces, inBody, rfl⟩
    rw [List.forall_mem_map]
    exact fun piece membership => mem_marked_iff.mpr ⟨piece, inBody piece membership, rfl⟩

theorem mem_star_marked_iff :
    text ∈ (star (seq (char mark) body)).language ↔
      ∃ pieces : List (List Char), (∀ piece ∈ pieces, piece ∈ body.language) ∧
        pieces.flatMap (mark :: ·) = text := by
  simp only [mem_star_iff, forall_marked_iff]
  constructor
  · rintro ⟨_, rfl, pieces, inBody, rfl⟩
    exact ⟨pieces, inBody, List.flatMap_def ..⟩
  · rintro ⟨pieces, inBody, rfl⟩
    exact ⟨_, List.flatMap_def .., pieces, inBody, rfl⟩

theorem mem_plus_marked_iff :
    text ∈ (plus (seq (char mark) body)).language ↔
      ∃ pieces : List (List Char), pieces ≠ [] ∧ (∀ piece ∈ pieces, piece ∈ body.language) ∧
        pieces.flatMap (mark :: ·) = text := by
  simp only [mem_plus_iff, forall_marked_iff]
  constructor
  · rintro ⟨_, given, rfl, pieces, inBody, rfl⟩
    exact ⟨pieces, by simpa using given, inBody, List.flatMap_def ..⟩
  · rintro ⟨pieces, given, inBody, rfl⟩
    exact ⟨_, by simpa using given, List.flatMap_def .., pieces, inBody, rfl⟩

end

/-! ### Splitting and joining -/

theorem intercalate_cons (mark : Char) (first : List Char) (others : List (List Char)) :
    [mark].intercalate (first :: others) = first ++ others.flatMap (mark :: ·) := by
  induction others generalizing first with
  | nil => simp
  | cons second others inductionHypothesis =>
      rw [List.intercalate_cons_cons, inductionHypothesis, List.flatMap_cons]
      simp

theorem mem_intercalate {mark c : Char} {parts : List (List Char)}
    (membership : c ∈ [mark].intercalate parts) : c = mark ∨ ∃ part ∈ parts, c ∈ part := by
  cases parts with
  | nil => simp at membership
  | cons first others =>
      rw [intercalate_cons, List.mem_append, List.mem_flatMap] at membership
      rcases membership with inFirst | ⟨part, inOthers, inPart⟩
      · exact .inr ⟨first, List.mem_cons_self, inFirst⟩
      · rcases List.mem_cons.mp inPart with isMark | inside
        · exact .inl isMark
        · exact .inr ⟨part, List.mem_cons_of_mem _ inOthers, inside⟩

section
variable {mark : Char} {text first : List Char} {others : List (List Char)}

theorem splitOn_joined (free : ∀ part ∈ first :: others, mark ∉ part) :
    (first ++ others.flatMap (mark :: ·)).splitOn mark = first :: others := by
  rw [← intercalate_cons]
  exact List.splitOn_intercalate mark free (List.cons_ne_nil first others)

theorem joined_of_splitOn (split : text.splitOn mark = first :: others) :
    first ++ others.flatMap (mark :: ·) = text := by
  rw [← intercalate_cons, ← split, List.intercalate_splitOn]

theorem splitOn_append_of_notMem (free : mark ∉ first) (rest : List Char) :
    (first ++ rest).splitOn mark = (rest.splitOn mark).modifyHead (first ++ ·) := by
  induction first with
  | nil => cases pieces : rest.splitOn mark <;> simp [pieces]
  | cons c first inductionHypothesis =>
      rw [List.mem_cons, not_or] at free
      rw [List.cons_append, List.splitOn_cons_eq_if_modifyHead, inductionHypothesis free.2,
        if_neg (by simpa using Ne.symm free.1)]
      cases rest.splitOn mark <;> rfl

theorem notMem_of_mem_splitOn {piece : List Char} (membership : piece ∈ text.splitOn mark) :
    mark ∉ piece := by
  induction text generalizing piece with
  | nil =>
      rw [List.splitOn_nil, List.mem_singleton] at membership
      rw [membership]
      exact List.not_mem_nil
  | cons c rest inductionHypothesis =>
      rw [List.splitOn_cons_eq_if_modifyHead] at membership
      split at membership
      · rcases List.mem_cons.mp membership with rfl | inRest
        · exact List.not_mem_nil
        · exact inductionHypothesis inRest
      next apart =>
          obtain ⟨first, others, split⟩ := List.exists_cons_of_ne_nil (List.splitOn_ne_nil mark rest)
          rw [split, List.modifyHead_cons] at membership
          rw [split] at inductionHypothesis
          rcases List.mem_cons.mp membership with rfl | inOthers
          · rw [List.mem_cons, not_or]
            exact ⟨fun same => apart (by simp [same]), inductionHypothesis List.mem_cons_self⟩
          · exact inductionHypothesis (List.mem_cons_of_mem first inOthers)

end

end AnimationGrammar
