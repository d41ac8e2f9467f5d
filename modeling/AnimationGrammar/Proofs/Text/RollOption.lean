import AnimationGrammar.Proofs.Text.Pieces
import AnimationGrammar.Text.Format

/-!
Roll options, taken apart.

Colons join the segments of a roll option and hyphens the runs of a slug, so both are found again by
splitting.  A hyphen in front of a number is not such a joint: where a segment is no slug, it may still be
a signed number.
-/

namespace AnimationGrammar

open Pattern TextFormat

/-! ### Slugs -/

def isSlugChar (c : Char) : Bool := ('a' ≤ c && c ≤ 'z') || ('0' ≤ c && c ≤ '9')

/-- Runs of small letters and digits, joined by single hyphens. -/
def IsSlug (text : List Char) : Prop := ∀ run ∈ text.splitOn '-', IsRunOf isSlugChar run

theorem mem_slugRun_iff {text : List Char} :
    text ∈ (plus slugChar).language ↔ IsRunOf isSlugChar text :=
  mem_run_iff fun c => by simp [CharSet.contains, CharItem.contains, isSlugChar]

theorem mem_slugPattern_iff {text : List Char} : text ∈ slugPattern.language ↔ IsSlug text := by
  unfold slugPattern
  rw [mem_seq_iff]
  constructor
  · rintro ⟨first, isFirst, _, areOthers, rfl⟩
    obtain ⟨others, inPattern, rfl⟩ := mem_star_marked_iff.mp areOthers
    have runs : ∀ run ∈ first :: others, IsRunOf isSlugChar run := by
      rw [List.forall_mem_cons]
      exact ⟨mem_slugRun_iff.mp isFirst,
        fun other membership => mem_slugRun_iff.mp (inPattern other membership)⟩
    rw [IsSlug, splitOn_joined fun run membership => (runs run membership).notMem rfl]
    exact runs
  · intro isSlug
    obtain ⟨first, others, split⟩ := List.exists_cons_of_ne_nil (List.splitOn_ne_nil '-' text)
    rw [IsSlug, split, List.forall_mem_cons] at isSlug
    refine ⟨first, mem_slugRun_iff.mpr isSlug.1, _, mem_star_marked_iff.mpr ⟨others, ?_, rfl⟩,
      joined_of_splitOn split⟩
    exact fun other membership => mem_slugRun_iff.mpr (isSlug.2 other membership)

theorem IsSlug.noColon {text : List Char} (isSlug : IsSlug text) : ':' ∉ text := by
  intro inside
  have joined : ['-'].intercalate (text.splitOn '-') = text := List.intercalate_splitOn '-'
  rw [← joined] at inside
  rcases mem_intercalate inside with isMark | ⟨run, inSplit, inRun⟩
  · exact absurd isMark (by decide)
  · exact (isSlug run inSplit).notMem rfl inRun

/-! ### Signed numbers -/

/-- Decimal digits of any script, perhaps behind a hyphen. -/
def IsSignedNumber : List Char → Prop
  | '-' :: digits => IsRunOf isDigitChar digits
  | digits => IsRunOf isDigitChar digits

theorem isSignedNumber_iff {text : List Char} : IsSignedNumber text ↔
    ∃ sign digits, (sign = [] ∨ sign = ['-']) ∧ IsRunOf isDigitChar digits ∧ sign ++ digits = text := by
  have hyphenIsNoDigit (rest : List Char) : ¬ IsRunOf isDigitChar ('-' :: rest) :=
    fun run => run.notMem rfl List.mem_cons_self
  constructor
  · intro isNumber
    unfold IsSignedNumber at isNumber
    split at isNumber
    · exact ⟨['-'], _, .inr rfl, isNumber, rfl⟩
    · exact ⟨[], _, .inl rfl, isNumber, rfl⟩
  · rintro ⟨_, digits, rfl | rfl, run, rfl⟩
    · unfold IsSignedNumber
      split
      next rest signed => exact absurd (signed ▸ run) (hyphenIsNoDigit rest)
      next => exact run
    · exact run

theorem mem_digits_iff {text : List Char} :
    text ∈ (plus (one ⟨[.digit], false⟩)).language ↔ IsRunOf isDigitChar text :=
  mem_run_iff fun c => by simp [CharSet.contains, CharItem.contains]

theorem mem_signedNumber_iff {text : List Char} :
    text ∈ (seq (optional (char '-')) (plus (one ⟨[.digit], false⟩))).language ↔
      IsSignedNumber text := by
  simp only [isSignedNumber_iff, mem_seq_iff, mem_optional_iff, mem_char_iff, mem_digits_iff]
  constructor
  · rintro ⟨sign, isSign, digits, run, rfl⟩
    exact ⟨sign, digits, isSign, run, rfl⟩
  · rintro ⟨sign, digits, isSign, run, rfl⟩
    exact ⟨sign, isSign, digits, run, rfl⟩

theorem IsSignedNumber.noColon {text : List Char} (isNumber : IsSignedNumber text) : ':' ∉ text := by
  obtain ⟨sign, digits, isSign, run, rfl⟩ := isSignedNumber_iff.mp isNumber
  rw [List.mem_append, not_or]
  refine ⟨?_, run.notMem rfl⟩
  rcases isSign with rfl | rfl <;> decide

/-! ### Segments -/

/-- The segments of a roll option are slugs.  If there are two or more, the last may instead be a signed
number. -/
def IsRollOption : List (List Char) → Prop
  | [] => False
  | first :: others => IsSlug first ∧ (∀ segment ∈ others.dropLast, IsSlug segment) ∧
      ∀ last ∈ others.getLast?, IsSlug last ∨ IsSignedNumber last

/-- The segments in the order of the pattern: slugs, and a number that may be missing. -/
theorem isRollOption_iff {segments : List (List Char)} :
    IsRollOption segments ↔ ∃ (first : List Char) (slugs : List (List Char)) (number : Option (List Char)),
      segments = first :: (slugs ++ number.toList) ∧ (∀ slug ∈ first :: slugs, IsSlug slug) ∧
        ∀ n ∈ number, IsSignedNumber n := by
  constructor
  · intro isOption
    obtain _ | ⟨first, others⟩ := segments
    · exact isOption.elim
    obtain ⟨isFirst, inner, last⟩ := isOption
    rcases List.eq_nil_or_concat others with rfl | ⟨slugs, segment, rfl⟩
    · exact ⟨first, [], none, rfl, by simpa using isFirst, nofun⟩
    rw [List.concat_eq_append] at inner last
    rw [List.dropLast_concat] at inner
    rcases last segment (by simp) with isSlug | isNumber
    · refine ⟨first, slugs ++ [segment], none, by simp, ?_, nofun⟩
      simp only [List.forall_mem_cons, List.forall_mem_append]
      exact ⟨isFirst, inner, isSlug, nofun⟩
    · refine ⟨first, slugs, some segment, by simp, ?_, by simpa using isNumber⟩
      rw [List.forall_mem_cons]
      exact ⟨isFirst, inner⟩
  · rintro ⟨first, slugs, number, rfl, areSlugs, isNumber⟩
    rw [List.forall_mem_cons] at areSlugs
    cases number with
    | none =>
        rw [Option.toList_none, List.append_nil]
        exact ⟨areSlugs.1, fun slug inSlugs => areSlugs.2 slug (List.mem_of_mem_dropLast inSlugs),
          fun slug isLast => .inl (areSlugs.2 slug (List.mem_of_getLast? isLast))⟩
    | some number =>
        refine ⟨areSlugs.1, ?_, ?_⟩
        · rw [Option.toList_some, List.dropLast_concat]
          exact areSlugs.2
        · rw [Option.toList_some, List.getLast?_concat]
          rintro _ ⟨⟩
          exact .inr (isNumber number rfl)

theorem mem_rollOptionPattern_iff {text : List Char} :
    text ∈ rollOptionPattern.language ↔
      ∃ (first : List Char) (slugs : List (List Char)) (number : Option (List Char)),
        (∀ slug ∈ first :: slugs, IsSlug slug) ∧ (∀ n ∈ number, IsSignedNumber n) ∧
          first ++ (slugs ++ number.toList).flatMap (':' :: ·) = text := by
  unfold rollOptionPattern
  simp only [List.forall_mem_cons, ← mem_slugPattern_iff, ← mem_signedNumber_iff, List.flatMap_append]
  constructor
  · rintro ⟨first, isFirst, _, ⟨_, areSlugs, _, isEnd, rfl⟩, rfl⟩
    obtain ⟨slugs, inPattern, rfl⟩ := mem_star_marked_iff.mp areSlugs
    rcases mem_optional_iff.mp isEnd with rfl | marked
    · exact ⟨first, slugs, none, ⟨isFirst, inPattern⟩, nofun, rfl⟩
    · obtain ⟨number, isNumber, rfl⟩ := mem_marked_iff.mp marked
      refine ⟨first, slugs, some number, ⟨isFirst, inPattern⟩, by simpa using isNumber, ?_⟩
      rw [Option.toList_some, List.flatMap_singleton]
  · rintro ⟨first, slugs, number, ⟨isFirst, inPattern⟩, isNumber, rfl⟩
    refine ⟨first, isFirst, _, ⟨_, mem_star_marked_iff.mpr ⟨slugs, inPattern, rfl⟩, _,
      mem_optional_iff.mpr ?_, rfl⟩, rfl⟩
    cases number with
    | none => exact .inl rfl
    | some number =>
        rw [Option.toList_some, List.flatMap_singleton]
        exact .inr (mem_marked_iff.mpr ⟨number, isNumber number rfl, rfl⟩)

/-- A text is accepted as a roll option exactly when its segments between colons are those of one. -/
theorem rollOption_accepts_iff {text : String} :
    TextFormat.rollOption.accepts text = true ↔ IsRollOption (text.toList.splitOn ':') := by
  rw [accepts, pattern, matchesWhole_iff, mem_anchored_iff, mem_rollOptionPattern_iff, isRollOption_iff]
  refine exists_congr fun first => exists_congr fun slugs => exists_congr fun number => ?_
  constructor
  · rintro ⟨areSlugs, isNumber, joined⟩
    refine ⟨?_, areSlugs, isNumber⟩
    rw [← joined]
    apply splitOn_joined
    simp only [List.forall_mem_cons, List.forall_mem_append, Option.mem_toList] at areSlugs ⊢
    exact ⟨areSlugs.1.noColon, fun slug inSlugs => (areSlugs.2 slug inSlugs).noColon,
      fun n given => (isNumber n given).noColon⟩
  · rintro ⟨split, areSlugs, isNumber⟩
    exact ⟨areSlugs, isNumber, joined_of_splitOn split⟩

example : ["item:slot-2:-2", "item:-2:slot", "-2"].map TextFormat.rollOption.accepts =
    [true, false, false] := by decide

end AnimationGrammar
