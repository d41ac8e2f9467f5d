import AnimationGrammar.Text.Pattern
import Mathlib.Computability.Language

/-!
The language of a pattern.

Matching goes by derivatives.  Here a pattern stands for a set of texts that is built up by the
operations on languages, and a text matches a pattern exactly when it belongs to that set.
-/

namespace AnimationGrammar

open Computability

/-! ### The first character of a text -/

section
variable {language other : Language Char} {c : Char} {rest : List Char}

theorem nil_mem_mul_iff : [] ∈ language * other ↔ [] ∈ language ∧ [] ∈ other := by
  rw [Language.mem_mul]
  constructor
  · rintro ⟨before, inFirst, after, inSecond, joined⟩
    obtain ⟨rfl, rfl⟩ := List.append_eq_nil_iff.mp joined
    exact ⟨inFirst, inSecond⟩
  · rintro ⟨inFirst, inSecond⟩
    exact ⟨[], inFirst, [], inSecond, rfl⟩

theorem cons_mem_mul_iff :
    c :: rest ∈ language * other ↔
      (∃ before, c :: before ∈ language ∧ ∃ after ∈ other, before ++ after = rest) ∨
        [] ∈ language ∧ c :: rest ∈ other := by
  rw [Language.mem_mul]
  constructor
  · rintro ⟨before, inFirst, after, inSecond, joined⟩
    cases before with
    | nil =>
        rw [List.nil_append] at joined
        subst joined
        exact .inr ⟨inFirst, inSecond⟩
    | cons d before =>
        rw [List.cons_append, List.cons.injEq] at joined
        obtain ⟨rfl, joined⟩ := joined
        exact .inl ⟨before, inFirst, after, inSecond, joined⟩
  · rintro (⟨before, inFirst, after, inSecond, rfl⟩ | ⟨inFirst, inSecond⟩)
    · exact ⟨c :: before, inFirst, after, inSecond, rfl⟩
    · exact ⟨[], inFirst, c :: rest, inSecond, rfl⟩

theorem cons_mem_kstar_iff :
    c :: rest ∈ language∗ ↔
      ∃ before, c :: before ∈ language ∧ ∃ after ∈ language∗, before ++ after = rest := by
  constructor
  · intro membership
    obtain ⟨parts, joined, each⟩ := Language.mem_kstar_iff_exists_nonempty.mp membership
    cases parts with
    | nil => simp at joined
    | cons part parts =>
        rw [List.forall_mem_cons] at each
        obtain ⟨⟨inLanguage, given⟩, each⟩ := each
        cases part with
        | nil => exact absurd rfl given
        | cons d before =>
            rw [List.flatten_cons, List.cons_append, List.cons.injEq] at joined
            obtain ⟨rfl, joined⟩ := joined
            refine ⟨before, inLanguage, parts.flatten, ?_, joined.symm⟩
            exact Language.join_mem_kstar fun part membership => (each part membership).1
  · rintro ⟨before, inLanguage, after, ⟨parts, rfl, each⟩, rfl⟩
    refine ⟨(c :: before) :: parts, rfl, ?_⟩
    rw [List.forall_mem_cons]
    exact ⟨inLanguage, each⟩

theorem cons_mem_pow_iff {count : Nat} :
    c :: rest ∈ language ^ (count + 1) ↔
      ∃ before, c :: before ∈ language ∧ ∃ after ∈ language ^ count, before ++ after = rest := by
  induction count generalizing rest with
  | zero => simp [Language.mem_one]
  | succ count inductionHypothesis =>
      rw [pow_succ', cons_mem_mul_iff, or_iff_left_of_imp]
      rintro ⟨silent, later⟩
      obtain ⟨before, inLanguage, after, inPower, joined⟩ := inductionHypothesis.mp later
      refine ⟨before, inLanguage, after, ?_, joined⟩
      rw [pow_succ']
      exact ⟨[], silent, after, inPower, rfl⟩

end

/-- A text that is not empty, with all characters of one class. -/
def IsRunOf (isMember : Char → Bool) (text : List Char) : Prop :=
  text ≠ [] ∧ ∀ c ∈ text, isMember c = true

instance (isMember : Char → Bool) (text : List Char) : Decidable (IsRunOf isMember text) :=
  decidable_of_iff (text ≠ [] ∧ text.all isMember = true) (by rw [IsRunOf, List.all_eq_true])

namespace Pattern

def language : Pattern → Language Char
  | nothing => 0
  | empty => 1
  | one set => ({text | ∃ c, text = [c] ∧ set.contains c = true} : Set (List Char))
  | seq first second => first.language * second.language
  | alt left right => left.language + right.language
  | star body => body.language∗
  | plus body => body.language * body.language∗
  | optional body => 1 + body.language
  | times body count => body.language ^ count
  | anchored body => body.language

section
variable {text : List Char}

theorem mem_one_iff {set : CharSet} :
    text ∈ (one set).language ↔ ∃ c, text = [c] ∧ set.contains c = true := Iff.rfl

theorem mem_seq_iff {first second : Pattern} :
    text ∈ (seq first second).language ↔
      ∃ before ∈ first.language, ∃ after ∈ second.language, before ++ after = text := Iff.rfl

theorem mem_alt_iff {left right : Pattern} :
    text ∈ (alt left right).language ↔ text ∈ left.language ∨ text ∈ right.language := Iff.rfl

theorem mem_optional_iff {body : Pattern} :
    text ∈ (optional body).language ↔ text = [] ∨ text ∈ body.language := Iff.rfl

theorem mem_anchored_iff {body : Pattern} :
    text ∈ (anchored body).language ↔ text ∈ body.language := Iff.rfl

theorem mem_star_iff {body : Pattern} :
    text ∈ (star body).language ↔
      ∃ parts : List (List Char), text = parts.flatten ∧ ∀ part ∈ parts, part ∈ body.language :=
  Iff.rfl

theorem mem_plus_iff {body : Pattern} :
    text ∈ (plus body).language ↔
      ∃ parts : List (List Char), parts ≠ [] ∧ text = parts.flatten ∧
        ∀ part ∈ parts, part ∈ body.language := by
  constructor
  · rintro ⟨first, inBody, _, ⟨others, rfl, each⟩, rfl⟩
    refine ⟨first :: others, List.cons_ne_nil first others, rfl, ?_⟩
    rw [List.forall_mem_cons]
    exact ⟨inBody, each⟩
  · rintro ⟨parts, given, rfl, each⟩
    cases parts with
    | nil => exact absurd rfl given
    | cons first others =>
        rw [List.forall_mem_cons] at each
        exact ⟨first, each.1, others.flatten, ⟨others, rfl, each.2⟩, rfl⟩

theorem mem_plus_one_iff {set : CharSet} :
    text ∈ (plus (one set)).language ↔ IsRunOf set.contains text := by
  rw [mem_plus_iff]
  constructor
  · rintro ⟨parts, given, rfl, each⟩
    constructor
    · intro empty
      obtain ⟨part, membership⟩ := List.exists_mem_of_ne_nil parts given
      obtain ⟨c, single, -⟩ := each part membership
      have nothing := List.flatten_eq_nil_iff.mp empty part membership
      simp [nothing] at single
    · intro c membership
      obtain ⟨part, inParts, inPart⟩ := List.mem_flatten.mp membership
      obtain ⟨d, rfl, contained⟩ := each part inParts
      rwa [List.mem_singleton.mp inPart]
  · rintro ⟨given, each⟩
    refine ⟨text.map fun c => [c], by simpa using given, ?_, ?_⟩
    · rw [← List.flatMap_def, List.flatMap_singleton']
    intro part membership
    obtain ⟨c, inText, rfl⟩ := List.mem_map.mp membership
    exact ⟨c, rfl, each c inText⟩

end

/-! ### Matching -/

theorem language_followedBy (first second : Pattern) :
    (first.followedBy second).language = first.language * second.language := by
  unfold followedBy
  split
  · exact (zero_mul _).symm
  · exact (one_mul _).symm
  · split
    next same =>
        rw [same]
        exact (mul_zero _).symm
    · rfl

theorem language_orElse (left right : Pattern) :
    (left.orElse right).language = left.language + right.language := by
  unfold orElse
  split
  next same =>
      rw [same]
      exact (zero_add _).symm
  · split
    next same =>
        rw [Bool.or_eq_true, decide_eq_true_eq, decide_eq_true_eq] at same
        rcases same with same | same
        · rw [same]
          exact (add_zero _).symm
        · rw [same]
          exact (Language.add_self _).symm
    · rfl

theorem matchesEmpty_iff (pattern : Pattern) :
    pattern.matchesEmpty = true ↔ [] ∈ pattern.language := by
  induction pattern with
  | nothing => exact iff_of_false Bool.false_ne_true (Language.notMem_zero [])
  | empty => exact iff_of_true rfl Language.nil_mem_one
  | one set => simp [matchesEmpty, mem_one_iff]
  | seq first second first_ih second_ih =>
      rw [matchesEmpty, Bool.and_eq_true, first_ih, second_ih, language, nil_mem_mul_iff]
  | alt left right left_ih right_ih =>
      rw [matchesEmpty, Bool.or_eq_true, left_ih, right_ih, mem_alt_iff]
  | star body => exact iff_of_true rfl (Language.nil_mem_kstar _)
  | plus body inductionHypothesis =>
      rw [matchesEmpty, inductionHypothesis, language, nil_mem_mul_iff,
        and_iff_left (Language.nil_mem_kstar _)]
  | optional body => exact iff_of_true rfl (.inl rfl)
  | times body count inductionHypothesis =>
      rw [matchesEmpty, Bool.or_eq_true, inductionHypothesis, language, beq_iff_eq]
      induction count with
      | zero => exact iff_of_true (.inl rfl) Language.nil_mem_one
      | succ count powers =>
          rw [pow_succ', nil_mem_mul_iff, ← powers, or_iff_right (Nat.succ_ne_zero count)]
          exact ⟨fun silent => ⟨silent, .inr silent⟩, And.left⟩
  | anchored body inductionHypothesis => exact inductionHypothesis

/-- A derivative describes what may follow after a character. -/
theorem mem_derivative_iff {c : Char} {rest : List Char} (pattern : Pattern) :
    rest ∈ (pattern.derivative c).language ↔ c :: rest ∈ pattern.language := by
  induction pattern generalizing rest with
  | nothing => exact iff_of_false (Language.notMem_zero _) (Language.notMem_zero _)
  | empty => exact iff_of_false (Language.notMem_zero _) (List.cons_ne_nil c rest)
  | one set =>
      rw [derivative, mem_one_iff]
      by_cases contained : set.contains c = true
      · rw [if_pos contained]
        simp [language, Language.mem_one, contained]
      · rw [if_neg contained]
        simp [language, Language.notMem_zero, contained]
  | seq first second first_ih second_ih =>
      have through : rest ∈ ((first.derivative c).followedBy second).language ↔
          ∃ before, c :: before ∈ first.language ∧
            ∃ after ∈ second.language, before ++ after = rest := by
        rw [language_followedBy, Language.mem_mul]
        simp only [first_ih]
      rw [derivative, language, cons_mem_mul_iff, ← matchesEmpty_iff, ← through, ← second_ih]
      by_cases silent : first.matchesEmpty = true
      · rw [if_pos silent, language_orElse, Language.mem_add]
        simp [silent]
      · rw [if_neg silent]
        simp [silent]
  | alt left right left_ih right_ih =>
      rw [derivative, language_orElse, Language.mem_add, left_ih, right_ih, mem_alt_iff]
  | star body inductionHypothesis =>
      rw [derivative, language_followedBy, Language.mem_mul, language, cons_mem_kstar_iff]
      simp only [inductionHypothesis]
  | plus body inductionHypothesis =>
      rw [derivative, language_followedBy, Language.mem_mul, language, language, cons_mem_mul_iff]
      simp only [inductionHypothesis]
      rw [or_iff_left_of_imp]
      rintro ⟨-, later⟩
      exact cons_mem_kstar_iff.mp later
  | optional body inductionHypothesis =>
      rw [derivative, inductionHypothesis, mem_optional_iff]
      simp
  | times body count inductionHypothesis =>
      rw [derivative]
      cases count with
      | zero => exact iff_of_false (Language.notMem_zero _) (List.cons_ne_nil c rest)
      | succ count =>
          rw [if_neg (Nat.succ_ne_zero count), language_followedBy, Language.mem_mul]
          simp only [inductionHypothesis]
          exact cons_mem_pow_iff.symm
  | anchored body inductionHypothesis => exact inductionHypothesis

/-- A text matches a pattern exactly when it is one of the texts that the pattern describes. -/
theorem matchesWhole_iff (pattern : Pattern) (text : List Char) :
    pattern.matchesWhole text = true ↔ text ∈ pattern.language := by
  unfold matchesWhole
  induction text generalizing pattern with
  | nil => exact pattern.matchesEmpty_iff
  | cons c rest inductionHypothesis =>
      rw [List.foldl_cons, inductionHypothesis, mem_derivative_iff]

end Pattern

end AnimationGrammar
