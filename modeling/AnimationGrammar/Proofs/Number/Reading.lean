import AnimationGrammar.Json.Reader
import AnimationGrammar.Value.Canonical
import AnimationGrammar.Proofs.Number.Decimal
import Mathlib.Data.List.TakeDrop

/-!
Numbers that are read.

A double reads back from its text, digit by digit.  The text of a whole one keeps its point and has more
digits than the decimal that it was made from, which stands for the same number.
-/

namespace AnimationGrammar

namespace Json

theorem digitsValue_eq (digits : List Char) : digitsValue digits = Nat.ofDigitChars 10 digits 0 := by
  rw [digitsValue, Nat.ofDigitChars_eq_foldl]
  simp only [Nat.mul_comm 10]
  rfl

theorem digitsValue_decimalDigits (n : Nat) : digitsValue (decimalDigits n) = n := by
  rw [digitsValue_eq, ofDigitChars_decimalDigits]

theorem digitsValue_zeros (count : Nat) (digits : List Char) :
    digitsValue (List.replicate count '0' ++ digits) = digitsValue digits := by
  rw [digitsValue_eq, digitsValue_eq, Nat.ofDigitChars_append, Nat.ofDigitChars_replicate_zero,
    Nat.mul_zero]

def EndsDigits (rest : List Char) : Prop := ∀ c ∈ rest.head?, c.isDigit = false

theorem takeDigits_append {digits rest : List Char} (digit : ∀ c ∈ digits, c.isDigit = true)
    (ends : EndsDigits rest) : takeDigits (digits ++ rest) = (digits, rest) := by
  rw [takeDigits, List.span_eq_takeWhile_dropWhile, List.takeWhile_append_of_pos digit,
    List.dropWhile_append_of_pos digit]
  cases rest with
  | nil => simp
  | cons c rest =>
      have stop : c.isDigit = false := ends c rfl
      simp [stop]

theorem takeDigits_all {digits : List Char} (digit : ∀ c ∈ digits, c.isDigit = true) :
    takeDigits digits = (digits, []) := by
  have ends : EndsDigits [] := by simp [EndsDigits]
  have taken := takeDigits_append digit ends
  rwa [List.append_nil] at taken

theorem wholeDigits?_append {first : Char} {digits rest : List Char} (nonzero : first ≠ '0')
    (digit : ∀ c ∈ first :: digits, c.isDigit = true) (ends : EndsDigits rest) :
    wholeDigits? (first :: digits ++ rest) = some (first :: digits, rest) := by
  have taken := takeDigits_append digit ends
  rw [List.cons_append] at taken ⊢
  rw [wholeDigits?]
  · rw [if_pos (digit first List.mem_cons_self), taken]
  · exact nonzero

theorem fractionDigits?_point {digits rest : List Char} (digit : ∀ c ∈ digits, c.isDigit = true)
    (given : digits ≠ []) (ends : EndsDigits rest) :
    fractionDigits? ('.' :: (digits ++ rest)) = some (digits, rest) := by
  rw [fractionDigits?, takeDigits_append digit ends]
  cases digits with
  | nil => exact absurd rfl given
  | cons first digits => rfl

theorem exponent?_exponentText (exponent : ℤ) :
    exponent? (NumberLayout.exponentText exponent).toList = some (exponent, []) := by
  have padded : ∃ digits : List Char, digits ≠ [] ∧ (∀ c ∈ digits, c.isDigit = true) ∧
      digitsValue digits = exponent.natAbs ∧
      (NumberLayout.exponentText exponent).toList =
        'e' :: (if exponent < 0 then '-' else '+') :: digits := by
    refine ⟨if (decimalDigits exponent.natAbs).length < 2 then '0' :: decimalDigits exponent.natAbs
      else decimalDigits exponent.natAbs, ?_, ?_, ?_, ?_⟩
    · split
      · simp
      · exact decimalDigits_ne_nil _
    · intro c membership
      split at membership
      · rcases List.mem_cons.mp membership with rfl | inDigits
        · decide
        · exact isDigit_of_mem_decimalDigits inDigits
      · exact isDigit_of_mem_decimalDigits membership
    · split
      · exact (digitsValue_zeros 1 _).trans (digitsValue_decimalDigits _)
      · exact digitsValue_decimalDigits _
    · rw [NumberLayout.exponentText, String.toList_append, String.toList_ofList]
      split <;> rfl
  obtain ⟨digits, given, digit, value, text⟩ := padded
  have taken := takeDigits_all digit
  rw [text]
  by_cases negative : exponent < 0
  · cases digits with
    | nil => exact absurd rfl given
    | cons first rest =>
        simp only [exponent?, negative, if_true, taken]
        simp only [decide_true, Bool.true_or, if_true, signed, value]
        congr 2
        omega
  · cases digits with
    | nil => exact absurd rfl given
    | cons first rest =>
        simp only [exponent?, negative, if_false, taken]
        simp [signed, value]
        omega

theorem readUnsigned_point (negative : Bool) {whole fraction : List Char}
    (wholePart : wholeDigits? (whole ++ '.' :: fraction) = some (whole, '.' :: fraction))
    (digit : ∀ c ∈ fraction, c.isDigit = true) (given : fraction ≠ []) :
    readUnsigned negative (whole ++ '.' :: fraction) =
      some (.ok (.double (.ofDecimal negative
        ⟨digitsValue (whole ++ fraction), -(fraction.length : ℤ)⟩)), []) := by
  have ends : EndsDigits [] := by simp [EndsDigits]
  have fractionPart := fractionDigits?_point digit given ends
  rw [List.append_nil] at fractionPart
  simp [readUnsigned, wholePart, fractionPart, exponent?]

theorem readUnsigned_exponent (negative : Bool) {first : Char} {fraction : List Char} (power : ℤ)
    (nonzero : first ≠ '0') (digit : ∀ c ∈ first :: fraction, c.isDigit = true) :
    readUnsigned negative (first :: (if fraction = [] then [] else '.' :: fraction) ++
        (NumberLayout.exponentText power).toList) =
      some (.ok (.double (.ofDecimal negative
        ⟨digitsValue (first :: fraction), power - fraction.length⟩)), []) := by
  have lead : ∀ c ∈ [first], c.isDigit = true := by
    simpa using digit first List.mem_cons_self
  have mark : ∃ rest, (NumberLayout.exponentText power).toList = 'e' :: rest := by
    rw [NumberLayout.exponentText, String.toList_append]
    split <;> exact ⟨_, rfl⟩
  obtain ⟨rest, text⟩ := mark
  have ends : EndsDigits (NumberLayout.exponentText power).toList := by
    simp [EndsDigits, text]
  have exponentPart := exponent?_exponentText power
  by_cases bare : fraction = []
  · subst bare
    have wholePart := wholeDigits?_append nonzero lead ends
    have noFraction : fractionDigits? (NumberLayout.exponentText power).toList = none := by
      rw [text]
      rfl
    rw [List.singleton_append] at wholePart
    simp [readUnsigned, wholePart, noFraction, exponentPart]
  · have point : EndsDigits ('.' :: (fraction ++ (NumberLayout.exponentText power).toList)) := by
      simp [EndsDigits]
    have wholePart := wholeDigits?_append nonzero lead point
    have fractionPart := fractionDigits?_point
      (fun c membership => digit c (List.mem_cons_of_mem _ membership)) bare ends
    simp only [if_neg bare, List.cons_append]
    simp only [List.cons_append, List.nil_append] at wholePart
    simp [readUnsigned, wholePart, fractionPart, exponentPart]

section DecimalText

variable {d : Decimal} {first : Char} {rest : List Char} (negative : Bool)

/-- Positional, with a zero before the point. -/
theorem readUnsigned_small (digits : decimalDigits d.digits = first :: rest) {count : Nat}
    (small : rest.length + d.exponent = -(count + 1 : ℤ)) :
    readUnsigned negative ('0' :: '.' :: (List.replicate count '0' ++ first :: rest)) =
      some (.ok (.double (.ofDecimal negative d)), []) := by
  have digit : ∀ c ∈ List.replicate count '0' ++ first :: rest, c.isDigit = true := by
    intro c membership
    rcases List.mem_append.mp membership with zero | inDigits
    · rw [List.eq_of_mem_replicate zero]
      decide
    · exact isDigit_of_mem_decimalDigits (digits ▸ inDigits)
  have wholePart : wholeDigits? (['0'] ++ '.' :: (List.replicate count '0' ++ first :: rest)) =
      some (['0'], '.' :: (List.replicate count '0' ++ first :: rest)) := rfl
  have text := readUnsigned_point negative wholePart digit (by simp)
  have value : digitsValue (['0'] ++ (List.replicate count '0' ++ first :: rest)) = d.digits := by
    rw [List.singleton_append, ← List.cons_append, ← List.replicate_succ, digitsValue_zeros,
      ← digits, digitsValue_decimalDigits]
  have exponent : -((List.replicate count '0' ++ first :: rest).length : ℤ) = d.exponent := by
    rw [List.length_append, List.length_replicate, List.length_cons]
    omega
  rw [value, exponent] at text
  exact text

/-- Positional, with digits on both sides of the point. -/
theorem readUnsigned_large (digits : decimalDigits d.digits = first :: rest) (nonzero : first ≠ '0')
    (places : d.exponent < 0) {count : Nat} (large : rest.length + d.exponent = count) :
    readUnsigned negative (first :: rest.take count ++ '.' :: rest.drop count) =
      some (.ok (.double (.ofDecimal negative d)), []) := by
  have digit : ∀ c ∈ first :: rest, c.isDigit = true := fun c membership =>
    isDigit_of_mem_decimalDigits (digits ▸ membership)
  have ends : EndsDigits ('.' :: rest.drop count) := by simp [EndsDigits]
  have whole : ∀ c ∈ first :: rest.take count, c.isDigit = true := by
    intro c membership
    rcases List.mem_cons.mp membership with rfl | inRest
    · exact digit c List.mem_cons_self
    · exact digit c (List.mem_cons_of_mem _ (List.mem_of_mem_take inRest))
  have fraction : ∀ c ∈ rest.drop count, c.isDigit = true := fun c membership =>
    digit c (List.mem_cons_of_mem _ (List.mem_of_mem_drop membership))
  have given : rest.drop count ≠ [] := by
    rw [← List.length_pos_iff, List.length_drop]
    omega
  rw [readUnsigned_point negative (wholeDigits?_append nonzero whole ends) fraction given]
  have same : (⟨digitsValue (first :: rest.take count ++ rest.drop count),
      -((rest.drop count).length : ℤ)⟩ : Decimal) = d := by
    rw [List.cons_append, List.take_append_drop, ← digits, digitsValue_decimalDigits,
      List.length_drop]
    rcases d with ⟨digits, exponent⟩
    simp only [Decimal.mk.injEq, true_and]
    simp only at large places
    omega
  rw [same]

/-- Positional, with zeros up to the point and one behind it. -/
theorem readUnsigned_whole (digits : decimalDigits d.digits = first :: rest) (nonzero : first ≠ '0')
    (whole : 0 ≤ d.exponent) :
    readUnsigned negative
        (first :: (rest ++ List.replicate d.exponent.toNat '0') ++ ['.', '0']) =
      some (.ok (.double (.ofDecimal negative d)), []) := by
  have positive : 0 < d.digits := by
    rw [Nat.pos_iff_ne_zero]
    intro zero
    rw [zero] at digits
    exact nonzero (List.cons.inj digits).1.symm
  have zeros (places : Nat) :
      first :: (rest ++ List.replicate places '0') = decimalDigits (d.digits * 10 ^ places) := by
    rw [decimalDigits_mul_pow positive, digits, List.cons_append]
  have digit : ∀ c ∈ first :: (rest ++ List.replicate d.exponent.toNat '0'), c.isDigit = true := by
    rw [zeros]
    exact fun c => isDigit_of_mem_decimalDigits
  have ends : EndsDigits ['.', '0'] := by simp [EndsDigits]
  have text := readUnsigned_point negative (wholeDigits?_append nonzero digit ends)
    (List.forall_mem_singleton.mpr (by decide)) (List.cons_ne_nil '0' [])
  have value : digitsValue (first :: (rest ++ List.replicate d.exponent.toNat '0') ++ ['0']) =
      d.digits * 10 ^ (d.exponent.toNat + 1) := by
    rw [List.cons_append, List.append_assoc, ← List.replicate_succ', zeros,
      digitsValue_decimalDigits]
  rw [text, value, Double.ofDecimal, Double.ofDecimal]
  simp only [List.length_singleton, Nat.cast_one, Decimal.magnitude?_point whole]

/-- With an exponent. -/
theorem readUnsigned_scientific (digits : decimalDigits d.digits = first :: rest)
    (nonzero : first ≠ '0') :
    readUnsigned negative (first :: (if rest = [] then [] else '.' :: rest) ++
        (NumberLayout.exponentText (rest.length + d.exponent)).toList) =
      some (.ok (.double (.ofDecimal negative d)), []) := by
  have digit : ∀ c ∈ first :: rest, c.isDigit = true := fun c membership =>
    isDigit_of_mem_decimalDigits (digits ▸ membership)
  have exponent : (rest.length + d.exponent : ℤ) - rest.length = d.exponent := by omega
  rw [readUnsigned_exponent negative _ nonzero digit, exponent, ← digits,
    digitsValue_decimalDigits]

theorem readUnsigned_decimalText (positive : 0 < d.digits) :
    readUnsigned negative (canonicalLayout.decimalText d).toList =
      some (.ok (.double (.ofDecimal negative d)), []) := by
  obtain ⟨first, rest, digits, firstDigit, nonzero⟩ := head_decimalDigits positive
  have leading : d.leadingExponent = rest.length + d.exponent := by
    rw [Decimal.leadingExponent, digitCount, digits, List.length_cons]
    omega
  rw [NumberLayout.decimalText]
  simp only [digits, leading]
  split
  · rw [NumberLayout.placePoint]
    split
    next small =>
        have exact : (rest.length : ℤ) + d.exponent =
            -(((-(rest.length + d.exponent : ℤ) - 1).toNat : ℤ) + 1) := by omega
        have text := readUnsigned_small negative digits exact
        rwa [String.toList_append, String.toList_ofList, String.toList_ofList]
    next large =>
        by_cases whole : 0 ≤ d.exponent
        · have text := readUnsigned_whole negative digits nonzero whole
          have filled : (rest.length + d.exponent : ℤ).toNat + 1 - (first :: rest).length =
              d.exponent.toNat := by
            rw [List.length_cons]
            omega
          have all : (first :: rest).length ≤ (rest.length + d.exponent : ℤ).toNat + 1 := by
            rw [List.length_cons]
            omega
          simp only [filled, List.take_of_length_le all, List.drop_of_length_le all]
          rw [String.toList_append, String.toList_ofList]
          exact text
        · have exact : (rest.length : ℤ) + d.exponent = (rest.length + d.exponent : ℤ).toNat := by
            omega
          have text := readUnsigned_large negative digits nonzero (not_le.mp whole) exact
          have given : rest.drop (rest.length + d.exponent : ℤ).toNat ≠ [] := by
            rw [← List.length_pos_iff, List.length_drop]
            omega
          have filled : (rest.length + d.exponent : ℤ).toNat + 1 - (first :: rest).length = 0 := by
            rw [List.length_cons]
            omega
          simp only [filled, List.replicate_zero, List.append_nil, List.take_succ_cons,
            List.drop_succ_cons]
          rwa [String.toList_ofList]
  · rw [String.toList_append, String.toList_ofList]
    have text := readUnsigned_scientific negative digits nonzero
    cases rest with
    | nil => exact text
    | cons second rest => exact text

end DecimalText

/-- A text of digits alone is read as no double. -/
theorem readUnsigned_digits {negative : Bool} {text rest : List Char} {x : Double}
    (digit : ∀ c ∈ text, c.isDigit = true) :
    readUnsigned negative text ≠ some (.ok (.double x), rest) := by
  have integral (later : List Char) (laterDigit : ∀ c ∈ later, c.isDigit = true) :
      fractionDigits? later = none ∧ exponent? later = none := by
    cases later with
    | nil => exact ⟨rfl, rfl⟩
    | cons c later =>
        have isDigit := laterDigit c List.mem_cons_self
        constructor
        · rw [fractionDigits?]
          rintro tail ⟨⟩
          simp at isDigit
        · have noMark : (decide (c = 'e') || decide (c = 'E')) = false := by
            rw [Bool.or_eq_false_iff, decide_eq_false_iff_not, decide_eq_false_iff_not]
            constructor <;> rintro rfl <;> simp at isDigit
          simp only [exponent?, noMark, Bool.false_eq_true, if_false]
  have later : ∀ whole rest, wholeDigits? text = some (whole, rest) →
      ∀ c ∈ rest, c.isDigit = true := by
    intro whole rest found
    cases text with
    | nil => simp [wholeDigits?] at found
    | cons first text =>
        by_cases zero : first = '0'
        · subst zero
          simp only [wholeDigits?, Option.some.injEq, Prod.mk.injEq] at found
          exact fun c membership => digit c (List.mem_cons_of_mem _ (found.2 ▸ membership))
        · rw [wholeDigits?, if_pos (digit first List.mem_cons_self), takeDigits_all digit] at found
          · simp only [Option.some.injEq, Prod.mk.injEq] at found
            simp [← found.2]
          · exact zero
  intro read
  rw [readUnsigned, Option.map_eq_some_iff] at read
  obtain ⟨⟨whole, after⟩, found, read⟩ := read
  obtain ⟨noFraction, noExponent⟩ := integral after (later whole after found)
  simp only [noFraction, noExponent, Option.getD_none, Option.isNone_none, Bool.and_self, if_true]
    at read
  split at read <;> simp at read

theorem readUnsigned_head {negative : Bool} {text : List Char}
    {found : Except Nat Numeral × List Char} (read : readUnsigned negative text = some found) :
    ∃ c rest, text = c :: rest ∧ c.isDigit = true := by
  rw [readUnsigned, Option.map_eq_some_iff] at read
  obtain ⟨⟨whole, rest⟩, found, _⟩ := read
  cases text with
  | nil => simp [wholeDigits?] at found
  | cons c text =>
      refine ⟨c, text, rfl, ?_⟩
      by_cases zero : c = '0'
      · rw [zero]
        decide
      · rw [wholeDigits?] at found
        · split at found
          next digit => exact digit
          next => simp at found
        · exact zero

theorem readNumber?_head {text : List Char} {found : Except Nat Numeral × List Char}
    (read : readNumber? text = some found) :
    ∃ c rest, text = c :: rest ∧ (c.isDigit = true ∨ c = '-') := by
  rw [readNumber?.eq_def] at read
  split at read
  · exact ⟨'-', _, rfl, .inr rfl⟩
  · obtain ⟨c, rest, text, digit⟩ := readUnsigned_head read
    exact ⟨c, rest, text, .inl digit⟩

theorem readNumber?_of_readUnsigned {text rest : List Char} {found : Except Nat Numeral}
    (read : readUnsigned false text = some (found, rest)) :
    readNumber? text = some (found, rest) := by
  rw [readNumber?]
  · exact read
  · rintro tail rfl
    simp [readUnsigned, wholeDigits?] at read

end Json

namespace Magnitude

theorem ofDecimal_shortest (negative : Bool) (magnitude : Magnitude) :
    Double.ofDecimal negative magnitude.shortest = .finite negative magnitude := by
  rw [Double.ofDecimal, magnitude?_shortest]

/-- A finite double reads back from its text. -/
theorem readNumber?_doubleText (magnitude : Magnitude) (negative : Bool) :
    Json.readNumber? (canonicalLayout.doubleText (.finite negative magnitude)).toList =
      some (.ok (.double (.finite negative magnitude)), []) := by
  have read : Json.readUnsigned negative (canonicalLayout.decimalText magnitude.shortest).toList =
      some (.ok (.double (.finite negative magnitude)), []) := by
    rw [← ofDecimal_shortest negative magnitude]
    by_cases zero : magnitude.units = 0
    · have shortest : magnitude.shortest = ⟨0, 0⟩ := by rw [Magnitude.shortest, if_pos zero]
      rw [shortest]
      rfl
    · exact Json.readUnsigned_decimalText negative
        (Decimal.digits_pos (magnitude?_shortest magnitude) zero)
  cases negative with
  | true =>
      rw [NumberLayout.doubleText, String.toList_append]
      exact read
  | false =>
      rw [NumberLayout.doubleText, String.toList_append]
      exact Json.readNumber?_of_readUnsigned read

end Magnitude

/-! ### Integers -/

namespace Json

theorem wholeDigits?_decimalDigits (n : Nat) :
    wholeDigits? (decimalDigits n) = some (decimalDigits n, []) := by
  rcases Nat.eq_zero_or_pos n with rfl | positive
  · rfl
  · obtain ⟨first, rest, digits, _, nonzero⟩ := head_decimalDigits positive
    have digit : ∀ c ∈ first :: rest, c.isDigit = true :=
      fun c membership => isDigit_of_mem_decimalDigits (digits ▸ membership)
    have ends : EndsDigits [] := by simp [EndsDigits]
    rw [digits]
    simpa using wholeDigits?_append nonzero digit ends

theorem readNumber?_integer {n : ℤ} (short : (Atom.number (.integer n)).isLongNumber = false) :
    readNumber? (integerText n).toList = some (.ok (.integer n), []) := by
  have fits : ¬ digitLimit < (decimalDigits n.natAbs).length := by
    have limit : digitLimit = Atom.textDigits := rfl
    have positive : 0 < Atom.textDigits := by decide
    rw [Atom.isLongNumber, decide_eq_false_iff_not, not_le] at short
    rw [not_lt, limit]
    generalize Atom.textDigits = digits at short positive
    exact (digitCount_le_iff positive).mpr short
  have read (negative : Bool) : readUnsigned negative (decimalDigits n.natAbs) =
      some (.ok (.integer (signed negative n.natAbs)), []) := by
    simp only [readUnsigned, wholeDigits?_decimalDigits, Option.map_some, fractionDigits?, exponent?,
      Option.getD_none, Option.isNone_none, Bool.and_self, if_true, if_neg fits,
      digitsValue_decimalDigits]
  rw [integerText]
  split
  next negative =>
      rw [String.toList_ofList, readNumber?, read]
      simp only [signed, if_true, Option.some.injEq, Prod.mk.injEq, Except.ok.injEq,
        Numeral.integer.injEq, and_true]
      omega
  next nonneg =>
      rw [String.toList_ofList, readNumber?_of_readUnsigned (read false)]
      simp only [signed, Bool.false_eq_true, if_false, Option.some.injEq, Prod.mk.injEq,
        Except.ok.injEq, Numeral.integer.injEq, and_true]
      omega

/-! ### What follows a number -/

/-- The sign of an exponent, and what follows the sign. -/
def exponentSign : List Char → Bool × List Char
  | '-' :: body => (true, body)
  | '+' :: body => (false, body)
  | body => (false, body)

def exponentDigits? (negative : Bool) (body : List Char) : Option (ℤ × List Char) :=
  match takeDigits body with
  | ([], _) => none
  | (digits, later) => some (signed negative (digitsValue digits), later)

theorem exponent?_cons (mark : Char) (text : List Char) :
    exponent? (mark :: text) =
      if mark = 'e' || mark = 'E' then exponentDigits? (exponentSign text).1 (exponentSign text).2
      else none := rfl

/-- Whether a text starts with nothing that a number goes on with. -/
def EndsNumber (rest : List Char) : Prop :=
  ∀ c ∈ rest.head?, c.isDigit = false ∧ c ∉ ['.', 'e', 'E', '+', '-']

section
variable {rest : List Char} (ends : EndsNumber rest)

include ends

theorem takeDigits_append_rest (text : List Char) :
    takeDigits (text ++ rest) = ((takeDigits text).1, (takeDigits text).2 ++ rest) := by
  simp only [takeDigits, List.span_eq_takeWhile_dropWhile]
  induction text with
  | nil =>
      cases rest with
      | nil => rfl
      | cons c rest => simp [(ends c rfl).1]
  | cons c text inductionHypothesis =>
      rw [Prod.mk.injEq] at inductionHypothesis
      cases digit : c.isDigit <;> simp [digit, inductionHypothesis]

theorem wholeDigits?_append_rest (text : List Char) :
    wholeDigits? (text ++ rest) =
      (wholeDigits? text).map fun (whole, after) => (whole, after ++ rest) := by
  cases text with
  | nil =>
      cases rest with
      | nil => rfl
      | cons c rest =>
          have noDigit := (ends c rfl).1
          rw [List.nil_append, wholeDigits?, if_neg (by simp [noDigit])]
          · rfl
          · rintro rfl
            simp at noDigit
  | cons c text =>
      by_cases zero : c = '0'
      · subst zero
        rfl
      · have taken := takeDigits_append_rest ends (c :: text)
        rw [List.cons_append] at taken ⊢
        rw [wholeDigits?, wholeDigits?, taken]
        · split <;> rfl
        · exact zero
        · exact zero

theorem fractionDigits?_append_rest (text : List Char) :
    fractionDigits? (text ++ rest) =
      (fractionDigits? text).map fun (fraction, after) => (fraction, after ++ rest) := by
  cases text with
  | nil =>
      cases rest with
      | nil => rfl
      | cons c rest =>
          rw [List.nil_append, fractionDigits?]
          · rfl
          · rintro later ⟨⟩
            simpa using (ends '.' rfl).2
  | cons c text =>
      by_cases point : c = '.'
      · subst point
        rw [List.cons_append, fractionDigits?, fractionDigits?, takeDigits_append_rest ends]
        rcases takeDigits text with ⟨_ | ⟨first, digits⟩, after⟩ <;> rfl
      · rw [List.cons_append, fractionDigits?, fractionDigits?]
        · rfl
        · rintro later ⟨⟩
          exact point rfl
        · rintro later ⟨⟩
          exact point rfl

theorem exponentSign_append_rest (text : List Char) :
    exponentSign (text ++ rest) = ((exponentSign text).1, (exponentSign text).2 ++ rest) := by
  cases text with
  | nil =>
      cases rest with
      | nil => rfl
      | cons c rest =>
          have noMark := (ends c rfl).2
          rw [List.nil_append, exponentSign.eq_def]
          split <;> simp_all [exponentSign]
  | cons c text =>
      rw [List.cons_append, exponentSign.eq_def, exponentSign.eq_def]
      split <;> simp_all

theorem exponentDigits?_append_rest (negative : Bool) (text : List Char) :
    exponentDigits? negative (text ++ rest) =
      (exponentDigits? negative text).map fun (power, after) => (power, after ++ rest) := by
  rw [exponentDigits?, exponentDigits?, takeDigits_append_rest ends]
  rcases takeDigits text with ⟨_ | ⟨first, digits⟩, after⟩ <;> rfl

theorem exponent?_append_rest (text : List Char) :
    exponent? (text ++ rest) =
      (exponent? text).map fun (power, after) => (power, after ++ rest) := by
  cases text with
  | nil =>
      cases rest with
      | nil => rfl
      | cons c rest =>
          have noMark := (ends c rfl).2
          simp only [List.mem_cons, List.not_mem_nil, or_false, not_or] at noMark
          simp [exponent?, noMark.2.1, noMark.2.2.1]
  | cons mark text =>
      rw [List.cons_append, exponent?_cons, exponent?_cons, exponentSign_append_rest ends,
        exponentDigits?_append_rest ends]
      split <;> rfl

theorem readUnsigned_append_rest (negative : Bool) (text : List Char) :
    readUnsigned negative (text ++ rest) =
      (readUnsigned negative text).map fun (found, after) => (found, after ++ rest) := by
  rw [readUnsigned, readUnsigned, wholeDigits?_append_rest ends]
  cases wholeDigits? text with
  | none => rfl
  | some found =>
      rcases found with ⟨whole, after⟩
      simp only [Option.map_some, fractionDigits?_append_rest ends]
      cases fractionDigits? after with
      | none =>
          simp only [Option.map_none, Option.getD_none, exponent?_append_rest ends]
          cases exponent? after with
          | none =>
              simp only [Option.map_none, Option.isNone_none, Bool.and_self, if_true]
              split <;> rfl
          | some found => rfl
      | some found =>
          rcases found with ⟨fraction, later⟩
          simp only [Option.map_some, Option.getD_some, exponent?_append_rest ends]
          cases exponent? later <;> rfl

/-- A number is read whatever follows it that cannot belong to it. -/
theorem readNumber?_append {text : List Char} {found : Except Nat Numeral}
    (read : readNumber? text = some (found, [])) :
    readNumber? (text ++ rest) = some (found, rest) := by
  have unsigned {negative : Bool} {text : List Char}
      (read : readUnsigned negative text = some (found, [])) :
      readUnsigned negative (text ++ rest) = some (found, rest) := by
    rw [readUnsigned_append_rest ends, read]
    rfl
  obtain ⟨c, body, rfl, _⟩ := readNumber?_head read
  rw [readNumber?.eq_def] at read
  rw [readNumber?.eq_def]
  split at read
  next minus =>
      cases minus
      exact unsigned read
  next noMinus =>
      split
      next later minus =>
          rw [List.cons_append, List.cons.injEq] at minus
          exact absurd (congrArg (List.cons · body) minus.1) (noMinus body)
      next => exact unsigned read

end

end Json

end AnimationGrammar
