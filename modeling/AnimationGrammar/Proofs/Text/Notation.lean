import AnimationGrammar.Proofs.Text.Language
import AnimationGrammar.Text.Format

/-!
The notation of patterns.

`Pattern.ofSource?` reads a pattern as other tools do: it goes through the marks of the notation and keeps
the groups that are open.  Every format is written so that reading it gives a pattern with the same
language.
-/

namespace AnimationGrammar

namespace Pattern

/-! ### Marks -/

/-- What the notation of a pattern is made of. -/
inductive Mark
  | set (set : CharSet)
  | star | plus | optional
  | times (count : Nat)
  | opening | closing | bar
  | start | finish

/-- A character after a backslash. -/
def escaped? (c : Char) : Option CharItem :=
  if c = 'w' then some .word
  else if c = 'd' then some .digit
  else if c.isAlphanum then none
  else some (.char c)

mutual

/-- The marks of a notation.  A dollar sign stands at the end of an alternative. -/
def marks? : List Char → Option (List Mark)
  | [] => some []
  | '(' :: '?' :: ':' :: rest => (marks? rest).map (.opening :: ·)
  | ')' :: rest => (marks? rest).map (.closing :: ·)
  | '|' :: rest => (marks? rest).map (.bar :: ·)
  | '*' :: rest => (marks? rest).map (.star :: ·)
  | '+' :: rest => (marks? rest).map (.plus :: ·)
  | '?' :: rest => (marks? rest).map (.optional :: ·)
  | '{' :: digit :: '}' :: rest =>
      if digit.isDigit then (marks? rest).map (.times (digit.toNat - '0'.toNat) :: ·) else none
  | '^' :: rest => (marks? rest).map (.start :: ·)
  | ['$'] => some [.finish]
  | '$' :: '|' :: rest => (marks? rest).map (.finish :: .bar :: ·)
  | '[' :: '^' :: rest => setMarks? true [] rest
  | '[' :: rest => setMarks? false [] rest
  | '\\' :: c :: rest =>
      match escaped? c with
      | some item => (marks? rest).map (.set ⟨[item], false⟩ :: ·)
      | none => none
  | c :: rest =>
      if c ∈ ['(', '{', '$', '\\', '.', ']', '}'] then none
      else (marks? rest).map (.set ⟨[.char c], false⟩ :: ·)

/-- The marks from within a set of characters on, of which some items have been read, the last one first. -/
def setMarks? (complement : Bool) (items : List CharItem) : List Char → Option (List Mark)
  | [] => none
  | ']' :: rest => (marks? rest).map (.set ⟨items.reverse, complement⟩ :: ·)
  | '\\' :: c :: rest =>
      match escaped? c with
      | some item => setMarks? complement (item :: items) rest
      | none => none
  | low :: '-' :: ']' :: rest =>
      (marks? rest).map (.set ⟨(.char '-' :: .char low :: items).reverse, complement⟩ :: ·)
  | low :: '-' :: high :: rest => setMarks? complement (.range low high :: items) rest
  | c :: rest => setMarks? complement (.char c :: items) rest

end

/-! ### Patterns from marks -/

def sequence : List Pattern → Pattern
  | [] => empty
  | [only] => only
  | first :: rest => seq first (sequence rest)

def choice : List Pattern → Pattern
  | [] => nothing
  | [only] => only
  | first :: rest => alt first (choice rest)

/-- A group that is open: the alternatives read before and the parts of the running one, both last first. -/
structure Group where
  alternatives : List Pattern := []
  parts : List Pattern := []

namespace Group

def close (group : Group) : Pattern :=
  choice (group.alternatives.reverse ++ [sequence group.parts.reverse])

def push (part : Pattern) (group : Group) : Group := { group with parts := part :: group.parts }

/-- Put a mark of repetition on the last part. -/
def repeatLast? (repetition : Pattern → Pattern) (group : Group) : Option Group :=
  match group.parts with
  | [] => none
  | last :: before => some { group with parts := repetition last :: before }

end Group

/-- Read a mark inside of the groups that are open, the innermost first. -/
def readMark? : List Group → Mark → Option (List Group)
  | [], _ => none
  | group :: outer, mark =>
      match mark with
      | .set set => some (group.push (one set) :: outer)
      | .star => (group.repeatLast? star).map (· :: outer)
      | .plus => (group.repeatLast? plus).map (· :: outer)
      | .optional => (group.repeatLast? optional).map (· :: outer)
      | .times count => (group.repeatLast? (times · count)).map (· :: outer)
      | .opening => some ({} :: group :: outer)
      | .closing =>
          match outer with
          | [] => none
          | around :: further => some (around.push group.close :: further)
      | .bar => some (⟨sequence group.parts.reverse :: group.alternatives, []⟩ :: outer)
      | .start => if outer.isEmpty && group.parts.isEmpty then some (group :: outer) else none
      | .finish => if outer.isEmpty then some (group :: outer) else none

/-- The pattern that a notation stands for. -/
def ofSource? (source : List Char) : Option Pattern :=
  match (marks? source).bind fun marks => marks.foldlM readMark? [{}] with
  | some [group] => some group.close
  | _ => none

/-! ### Patterns that are written alike -/

/-- The parts that a pattern is written as, one after the other. -/
def factors : Pattern → List Pattern
  | nothing => [nothing]
  | empty => []
  | one set => [one set]
  | seq first second => first.factors ++ second.factors
  | alt left right => [alt (sequence left.factors) (sequence right.factors)]
  | star body => [star (sequence body.factors)]
  | plus body => [plus (sequence body.factors)]
  | optional body => [optional (sequence body.factors)]
  | times body count => [times (sequence body.factors) count]
  | anchored body => body.factors

theorem language_sequence_cons (first : Pattern) (rest : List Pattern) :
    (sequence (first :: rest)).language = first.language * (sequence rest).language := by
  cases rest with
  | nil => exact (mul_one _).symm
  | cons second rest => rfl

theorem language_sequence_append (before after : List Pattern) :
    (sequence (before ++ after)).language =
      (sequence before).language * (sequence after).language := by
  induction before with
  | nil => exact (one_mul _).symm
  | cons first rest inductionHypothesis =>
      rw [List.cons_append, language_sequence_cons, language_sequence_cons, inductionHypothesis,
        mul_assoc]

theorem language_sequence_factors (pattern : Pattern) :
    (sequence pattern.factors).language = pattern.language := by
  induction pattern with
  | nothing | empty | one set => rfl
  | seq first second first_eq second_eq =>
      rw [factors, language_sequence_append, first_eq, second_eq, language]
  | alt left right left_eq right_eq =>
      rw [factors, sequence, language, left_eq, right_eq, language]
  | star body body_eq | plus body body_eq | optional body body_eq | times body count body_eq =>
      rw [factors, sequence, language, body_eq, language]
  | anchored body body_eq => rw [factors, body_eq, language]

end Pattern

/-- The notation of a format stands for a pattern with its language. -/
theorem TextFormat.ofSource?_pattern (format : TextFormat) :
    Pattern.ofSource? format.pattern.source.toList =
      some (Pattern.sequence format.pattern.factors) := by
  rw [Pattern.source, String.toList_ofList]
  cases format <;> decide +kernel

theorem TextFormat.accepts_iff {format : TextFormat} {content : String} :
    format.accepts content = true ↔ ∃ pattern,
      Pattern.ofSource? format.pattern.source.toList = some pattern ∧
        content.toList ∈ pattern.language := by
  simp [accepts, Pattern.matchesWhole_iff, ofSource?_pattern, Pattern.language_sequence_factors]

end AnimationGrammar
