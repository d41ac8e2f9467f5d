import AnimationGrammar.CommandLine.PathText
import AnimationGrammar.Proofs.Number.Text
import AnimationGrammar.Proofs.Text.Pieces

/-!
Paths that can be told apart in print.

A name is written behind a dot, but not if it comes first: this dot is left out.  With the dot put back,
the text of a path is what its steps contribute one by one, and each contribution starts with a mark that
stands in no ordinary name and in no number.  So the first step can be read off, then the next, and so on.
-/

namespace AnimationGrammar

/-! ### Steps -/

/-- The characters of ordinary names: letters and digits of any script, underscores, hyphens, colons. -/
def isNameChar (c : Char) : Bool := isWordChar c || c == '-' || c == ':'

inductive IsOrdinaryStep : Atom → Prop
  | name {text : String} : IsRunOf isNameChar text.toList → IsOrdinaryStep (.text text)
  | position (index : Nat) : IsOrdinaryStep (.number (.integer index))

def stepText : Atom → List Char
  | .number (.integer n) => '[' :: ((integerText n).toList ++ [']'])
  | step => '.' :: step.display.toList

@[simp] theorem stepText_name (text : String) : stepText (.text text) = '.' :: text.toList := rfl

@[simp] theorem stepText_position (n : ℤ) :
    stepText (.number (.integer n)) = '[' :: ((integerText n).toList ++ [']']) := rfl

theorem digit_of_mem_integerText (n : Nat) : ∀ c ∈ (integerText n).toList, c.isDigit = true := by
  intro c membership
  rw [integerText_toList, if_neg (Int.not_lt.mpr (Int.natCast_nonneg n)), List.nil_append] at membership
  exact isDigit_of_mem_decimalDigits membership

theorem head_stepTexts {path : Path} (ordinary : ∀ step ∈ path, IsOrdinaryStep step) :
    ∀ c ∈ (path.flatMap stepText).head?, c = '.' ∨ c = '[' := by
  cases path with
  | nil => nofun
  | cons step rest =>
      rw [List.forall_mem_cons] at ordinary
      rw [List.flatMap_cons]
      obtain ⟨run⟩ | index := ordinary.1
      · rintro _ ⟨⟩
        exact .inl rfl
      · rintro _ ⟨⟩
        exact .inr rfl

theorem stepText_append_inj {step other : Atom} (isOrdinary : IsOrdinaryStep step)
    (alsoOrdinary : IsOrdinaryStep other) {rest later : List Char}
    (ends : ∀ c ∈ rest.head?, c = '.' ∨ c = '[') (alsoEnds : ∀ c ∈ later.head?, c = '.' ∨ c = '[')
    (same : stepText step ++ rest = stepText other ++ later) : step = other ∧ rest = later := by
  have notName {text : List Char} (ends : ∀ c ∈ text.head?, c = '.' ∨ c = '[') :
      ∀ c ∈ text.head?, isNameChar c = false := by
    intro c first
    rcases ends c first with rfl | rfl <;> decide
  cases isOrdinary with
  | @name text run =>
      cases alsoOrdinary with
      | @name other alsoRun =>
          rw [stepText_name, stepText_name, List.cons_append, List.cons_append, List.cons.injEq] at same
          obtain ⟨names, tails⟩ := run_append_inj run.2 alsoRun.2 (notName ends) (notName alsoEnds)
            same.2
          exact ⟨by rw [String.toList_inj.mp names], tails⟩
      | position index => simp at same
  | position index =>
      cases alsoOrdinary with
      | @name other alsoRun => simp at same
      | position other =>
          simp only [stepText_position, List.cons_append, List.append_assoc, List.nil_append,
            List.cons.injEq, true_and] at same
          obtain ⟨numbers, tails⟩ := run_append_inj (digit_of_mem_integerText index)
            (digit_of_mem_integerText other) (by simp) (by simp) same
          rw [integerText_injective (String.toList_inj.mp numbers)]
          exact ⟨rfl, (List.cons.inj tails).2⟩

/-- Steps can be told apart in what is written of them. -/
theorem stepTexts_inj {first second : Path} (ordinary : ∀ step ∈ first, IsOrdinaryStep step)
    (alsoOrdinary : ∀ step ∈ second, IsOrdinaryStep step)
    (same : first.flatMap stepText = second.flatMap stepText) : first = second := by
  have given (step : Atom) (rest : List Char) : stepText step ++ rest ≠ [] := by
    unfold stepText
    split <;> simp
  induction first generalizing second with
  | nil =>
      cases second with
      | nil => rfl
      | cons other later => exact absurd same.symm (given other _)
  | cons step rest inductionHypothesis =>
      cases second with
      | nil => exact absurd same (given step _)
      | cons other later =>
          rw [List.forall_mem_cons] at ordinary alsoOrdinary
          rw [List.flatMap_cons, List.flatMap_cons] at same
          obtain ⟨rfl, tails⟩ := stepText_append_inj ordinary.1 alsoOrdinary.1
            (head_stepTexts ordinary.2) (head_stepTexts alsoOrdinary.2) same
          rw [inductionHypothesis ordinary.2 alsoOrdinary.2 tails]

/-! ### The dot in front -/

/-- A text with the dot that is left out in front of a name. -/
def withDot : List Char → List Char
  | '[' :: rest => '[' :: rest
  | text => '.' :: text

@[simp] theorem continuePath_name (before name : String) (rest : Path) :
    continuePath before (.text name :: rest) =
      continuePath (if before = "" then name else before ++ "." ++ name) rest := rfl

@[simp] theorem continuePath_position (before : String) (n : ℤ) (rest : Path) :
    continuePath before (.number (.integer n) :: rest) =
      continuePath (before ++ "[" ++ integerText n ++ "]") rest := rfl

theorem continuePath_toList {before : String} (given : before ≠ "") {path : Path}
    (ordinary : ∀ step ∈ path, IsOrdinaryStep step) :
    (continuePath before path).toList = before.toList ++ path.flatMap stepText := by
  induction path generalizing before with
  | nil => simp [continuePath]
  | cons step rest inductionHypothesis =>
      rw [List.forall_mem_cons] at ordinary
      have longer (text : String) : before ++ text ≠ "" := by
        simp [given]
      obtain ⟨run⟩ | index := ordinary.1
      · rw [continuePath_name, if_neg given, String.append_assoc,
          inductionHypothesis (longer _) ordinary.2]
        simp
      · rw [continuePath_position, String.append_assoc, String.append_assoc,
          inductionHypothesis (longer _) ordinary.2]
        simp

theorem pathText_toList {path : Path} {text : List Char} (given : text ≠ [])
    (continued : (continuePath "" path).toList = text) : (pathText path).toList = text := by
  rw [pathText]
  split
  next empty =>
      rw [empty] at continued
      exact absurd continued.symm given
  next => exact continued

/-- The text of a path shows its steps once the dot in front is put back. -/
theorem withDot_pathText {step : Atom} {rest : Path} (isOrdinary : IsOrdinaryStep step)
    (ordinary : ∀ step ∈ rest, IsOrdinaryStep step) :
    withDot (pathText (step :: rest)).toList = stepText step ++ rest.flatMap stepText := by
  cases isOrdinary with
  | @name text run =>
      have given : text ≠ "" := by
        rintro rfl
        exact run.1 rfl
      have continued : (continuePath "" (.text text :: rest)).toList =
          text.toList ++ rest.flatMap stepText := by
        rw [continuePath_name, if_pos rfl, continuePath_toList given ordinary]
      obtain ⟨c, name, split⟩ := List.exists_cons_of_ne_nil run.1
      rw [pathText_toList (by simp [split]) continued, stepText_name, split, List.cons_append,
        List.cons_append, List.cons_append, withDot]
      intro other bracket
      rw [(List.cons.inj bracket).1] at split
      exact absurd (run.2 '[' (by simp [split])) (by decide)
  | position index =>
      have continued : (continuePath "" (.number (.integer index) :: rest)).toList =
          stepText (.number (.integer index)) ++ rest.flatMap stepText := by
        rw [continuePath_position, continuePath_toList (by simp) ordinary]
        simp
      rw [pathText_toList (by simp) continued]
      rfl

theorem IsOrdinaryStep.notMem_text {step : Atom} (isOrdinary : IsOrdinaryStep step) :
    '<' ∉ stepText step := by
  cases isOrdinary with
  | name run =>
      rw [stepText_name, List.mem_cons, not_or]
      exact ⟨by decide, run.notMem rfl⟩
  | position index =>
      simp only [stepText_position, List.mem_cons, List.mem_append, not_or]
      refine ⟨by decide, fun inNumber => ?_, by decide⟩
      exact absurd (digit_of_mem_integerText index _ inNumber) (by decide)

/-! ### Paths -/

theorem pathText_ne_root {step : Atom} {rest : Path} (isOrdinary : IsOrdinaryStep step)
    (ordinary : ∀ step ∈ rest, IsOrdinaryStep step) : pathText (step :: rest) ≠ pathText [] := by
  intro same
  have inside : '<' ∈ withDot (pathText []).toList := by decide
  rw [← same, withDot_pathText isOrdinary ordinary, List.mem_append, List.mem_flatMap] at inside
  rcases inside with inFirst | ⟨other, inRest, inOther⟩
  · exact isOrdinary.notMem_text inFirst
  · exact (ordinary other inRest).notMem_text inOther

/-- Ordinary paths can be told apart in print. -/
theorem pathText_eq_iff {first second : Path} (ordinary : ∀ step ∈ first, IsOrdinaryStep step)
    (alsoOrdinary : ∀ step ∈ second, IsOrdinaryStep step) :
    pathText first = pathText second ↔ first = second := by
  refine ⟨fun same => ?_, congrArg pathText⟩
  rcases first with _ | ⟨step, rest⟩ <;> rcases second with _ | ⟨other, later⟩
  · rfl
  · rw [List.forall_mem_cons] at alsoOrdinary
    exact absurd same.symm (pathText_ne_root alsoOrdinary.1 alsoOrdinary.2)
  · rw [List.forall_mem_cons] at ordinary
    exact absurd same (pathText_ne_root ordinary.1 ordinary.2)
  · apply stepTexts_inj ordinary alsoOrdinary
    rw [List.forall_mem_cons] at ordinary alsoOrdinary
    rw [List.flatMap_cons, List.flatMap_cons, ← withDot_pathText ordinary.1 ordinary.2, same,
      withDot_pathText alsoOrdinary.1 alsoOrdinary.2]

def burstByPosition : Path := [.text "burst-2", .number (.integer 0), .text "roll:melee"]

def burstByName : Path := [.text "burst-2", .text "0", .text "roll:melee"]

theorem pathText_burst_differs :
    (∀ step ∈ burstByPosition, IsOrdinaryStep step) ∧ (∀ step ∈ burstByName, IsOrdinaryStep step) ∧
      pathText burstByPosition ≠ pathText burstByName := by
  have byPosition : ∀ step ∈ burstByPosition, IsOrdinaryStep step := by
    simp only [burstByPosition, List.forall_mem_cons]
    exact ⟨.name (by decide), .position 0, .name (by decide), List.forall_mem_nil _⟩
  have byName : ∀ step ∈ burstByName, IsOrdinaryStep step := by
    simp only [burstByName, List.forall_mem_cons]
    exact ⟨.name (by decide), .name (by decide), .name (by decide), List.forall_mem_nil _⟩
  refine ⟨byPosition, byName, mt (pathText_eq_iff byPosition byName).mp ?_⟩
  simp [burstByPosition, burstByName]

end AnimationGrammar
