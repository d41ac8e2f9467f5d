import AnimationGrammar.Proofs.Number.Order
import AnimationGrammar.Proofs.Number.Reading

/-!
Numbers and their texts.

A double that is not whole reads back from its text.  Whole numbers are written as integers, so the
canonical texts of two numbers agree exactly when the numbers are equal.
-/

namespace AnimationGrammar

/-! ### Canonical texts of numbers -/

def numberSigns : List Char := ['-', '+', '.', 'e'] ++ "Infinity".toList ++ "NaN".toList

def IsNumberText (text : List Char) : Prop := ∀ c ∈ text, c.isDigit = true ∨ c ∈ numberSigns

theorem IsNumberText.append {first second : List Char} (left : IsNumberText first)
    (right : IsNumberText second) : IsNumberText (first ++ second) := by
  intro c membership
  rcases List.mem_append.mp membership with inFirst | inSecond
  · exact left c inFirst
  · exact right c inSecond

theorem IsNumberText.cons {c : Char} {rest : List Char} (sign : c ∈ numberSigns)
    (right : IsNumberText rest) : IsNumberText (c :: rest) := by
  intro other membership
  rcases List.mem_cons.mp membership with rfl | inRest
  · exact .inr sign
  · exact right other inRest

theorem isNumberText_digits {digits : List Char} (digit : ∀ c ∈ digits, c.isDigit = true) :
    IsNumberText digits := fun c membership => .inl (digit c membership)

theorem isNumberText_signs {text : List Char} (signs : (text.all (· ∈ numberSigns)) = true) :
    IsNumberText text := by
  intro c membership
  right
  simpa using List.all_eq_true.mp signs c membership

theorem isNumberText_zeros (count : Nat) : IsNumberText (List.replicate count '0') := by
  refine isNumberText_digits fun c membership => ?_
  rw [List.eq_of_mem_replicate membership]
  decide

theorem isNumberText_exponentText (exponent : ℤ) :
    IsNumberText (NumberLayout.exponentText exponent).toList := by
  have digits : IsNumberText (decimalDigits exponent.natAbs) :=
    isNumberText_digits fun c => isDigit_of_mem_decimalDigits
  rw [NumberLayout.exponentText, String.toList_append, String.toList_ofList]
  refine .append ?_ ?_
  · split <;> exact isNumberText_signs (by decide)
  · split
    · exact .append (isNumberText_zeros 1) digits
    · exact digits

theorem isNumberText_decimalText (d : Decimal) :
    IsNumberText (canonicalLayout.decimalText d).toList := by
  have digits : ∀ c ∈ decimalDigits d.digits, c.isDigit = true :=
    fun c => isDigit_of_mem_decimalDigits
  have point {first second : List Char} (left : ∀ c ∈ first, c.isDigit = true)
      (right : ∀ c ∈ second, c.isDigit = true) : IsNumberText (first ++ '.' :: second) :=
    .append (isNumberText_digits left) (.cons (by decide) (isNumberText_digits right))
  rw [NumberLayout.decimalText]
  simp only
  split
  · rw [NumberLayout.placePoint]
    split
    · have fraction : IsNumberText
          (List.replicate (-d.leadingExponent - 1).toNat '0' ++ decimalDigits d.digits) :=
        .append (isNumberText_zeros _) (isNumberText_digits digits)
      rw [String.toList_append, String.toList_ofList, String.toList_ofList]
      have zero : ∀ c ∈ ['0'], c.isDigit = true := List.forall_mem_singleton.mpr (by decide)
      exact .append (point zero (by simp)) fraction
    · have whole : IsNumberText ((decimalDigits d.digits).take (d.leadingExponent.toNat + 1) ++
          List.replicate (d.leadingExponent.toNat + 1 - (decimalDigits d.digits).length) '0') :=
        .append (isNumberText_digits fun c membership => digits c (List.mem_of_mem_take membership))
          (isNumberText_zeros _)
      simp only
      split
      · rw [String.toList_append, String.toList_ofList]
        exact .append whole (.cons (by decide) (isNumberText_zeros 1))
      · rw [String.toList_ofList]
        exact .append whole (.cons (by decide) (isNumberText_digits fun c membership =>
          digits c (List.mem_of_mem_drop membership)))
  · rw [String.toList_append, String.toList_ofList]
    refine .append ?_ (isNumberText_exponentText _)
    split
    next first second rest equality =>
        rw [equality] at digits
        have lead : ∀ c ∈ [first], c.isDigit = true := by
          simpa using digits first List.mem_cons_self
        exact point lead fun c membership => digits c (List.mem_cons_of_mem _ membership)
    next => exact isNumberText_digits digits

theorem integerText_toList (n : ℤ) :
    (integerText n).toList = (if n < 0 then ['-'] else []) ++ decimalDigits n.natAbs := by
  rw [integerText]
  split <;> rw [String.toList_ofList] <;> rfl

theorem isNumberText_integerText (n : ℤ) : IsNumberText (integerText n).toList := by
  have digits : IsNumberText (decimalDigits n.natAbs) :=
    isNumberText_digits fun c => isDigit_of_mem_decimalDigits
  rw [integerText_toList]
  split
  · exact .cons (by decide) digits
  · exact digits

theorem isNumberText_doubleText (x : Double) :
    IsNumberText (canonicalLayout.doubleText x).toList := by
  rcases x with ⟨negative, magnitude⟩ | negative | _
  · rw [NumberLayout.doubleText, String.toList_append]
    refine .append ?_ (isNumberText_decimalText _)
    cases negative <;> exact isNumberText_signs (by decide)
  · cases negative <;> exact isNumberText_signs (by decide)
  · exact isNumberText_signs (by decide)

theorem Numeral.isNumberText (n : Numeral) : IsNumberText n.canonicalText.toList := by
  cases n with
  | integer value => exact isNumberText_integerText value
  | double x =>
      rw [canonicalText]
      split
      · exact isNumberText_integerText _
      · exact isNumberText_doubleText x

theorem integerText_injective {n m : ℤ} (same : integerText n = integerText m) : n = m := by
  have texts := congrArg String.toList same
  rw [integerText_toList, integerText_toList] at texts
  have noSign (k : ℤ) (digits : List Char) : decimalDigits k.natAbs ≠ '-' :: digits := by
    intro equality
    have isDigit := isDigit_of_mem_decimalDigits (equality ▸ List.mem_cons_self)
    simp at isDigit
  by_cases first : n < 0 <;> by_cases second : m < 0
  · simp only [first, second, if_true, List.singleton_append, List.cons.injEq, true_and] at texts
    have absolute := decimalDigits_injective texts
    omega
  · simp only [first, second, if_true, if_false, List.singleton_append, List.nil_append] at texts
    exact absurd texts.symm (noSign m _)
  · simp only [first, second, if_true, if_false, List.singleton_append, List.nil_append] at texts
    exact absurd texts (noSign n _)
  · simp only [first, second, if_false, List.nil_append] at texts
    have absolute := decimalDigits_injective texts
    omega

/-- No integer has a text that is read as a double. -/
theorem readNumber?_integerText (n : ℤ) (x : Double) (rest : List Char) :
    Json.readNumber? (integerText n).toList ≠ some (.ok (.double x), rest) := by
  have digit : ∀ c ∈ decimalDigits n.natAbs, c.isDigit = true :=
    fun c => isDigit_of_mem_decimalDigits
  rw [integerText_toList]
  split
  · exact Json.readUnsigned_digits digit
  · rw [List.nil_append, Json.readNumber?]
    · exact Json.readUnsigned_digits digit
    · rintro tail equality
      have isDigit := digit '-' (equality ▸ List.mem_cons_self)
      simp at isDigit

namespace Numeral

theorem place_of_toInt? {n : Numeral} {value : ℤ} (whole : n.toInt? = some value) :
    n.place = finitePlace (value * unitsPerOne) := by
  rcases n with other | ⟨negative, magnitude⟩ | negative | _
  · simp only [toInt?, Option.some.injEq] at whole
    rw [place, whole]
  · simp only [toInt?, Double.toInt?, Option.map_eq_some_iff, Magnitude.whole?] at whole
    obtain ⟨count, divides, rfl⟩ := whole
    split at divides
    next exact =>
        have units : magnitude.units = count * unitsPerOne := by
          rw [← Option.some.inj divides, Nat.div_mul_cancel (Nat.dvd_of_mod_eq_zero exact)]
        simp only [place, units]
        generalize unitsPerOne = scale
        cases negative <;> simp [signed]
    next => simp at divides
  · simp [toInt?, Double.toInt?] at whole
  · simp [toInt?, Double.toInt?] at whole

theorem canonicalText_whole {n : Numeral} {value : ℤ} (whole : n.toInt? = some value) :
    n.canonicalText = integerText value := by
  cases n with
  | integer other =>
      simp only [toInt?, Option.some.injEq] at whole
      rw [canonicalText, whole]
  | double x =>
      simp only [toInt?] at whole
      rw [canonicalText, whole]

/-- What a number is that is not whole. -/
theorem fractional_cases {n : Numeral} (ordered : n.IsOrdered) (fractional : n.toInt? = none) :
    (∃ negative magnitude, n = .double (.finite negative magnitude) ∧
      magnitude.whole? = none) ∨ ∃ negative, n = .double (.infinite negative) := by
  rcases n with value | ⟨negative, magnitude⟩ | negative | _
  · simp [toInt?] at fractional
  · simp only [toInt?, Double.toInt?, Option.map_eq_none_iff] at fractional
    exact .inl ⟨negative, magnitude, rfl, fractional⟩
  · exact .inr ⟨negative, rfl⟩
  · exact absurd rfl ordered

def reading? : Numeral → Option (Except Nat Numeral × List Char)
  | .double (.finite negative magnitude) => some (.ok (.double (.finite negative magnitude)), [])
  | _ => none

theorem readNumber?_canonicalText {n : Numeral} (ordered : n.IsOrdered)
    (fractional : n.toInt? = none) : Json.readNumber? n.canonicalText.toList = n.reading? := by
  rcases fractional_cases ordered fractional with
    ⟨negative, magnitude, rfl, notWhole⟩ | ⟨negative, rfl⟩
  · simp only [toInt?] at fractional
    rw [canonicalText, fractional]
    exact magnitude.readNumber?_doubleText negative
  · cases negative <;> rfl

theorem not_whole_of_place {n : Numeral} {value : ℤ} (fractional : n.toInt? = none)
    (ordered : n.IsOrdered) : n.place ≠ finitePlace (value * unitsPerOne) := by
  rcases fractional_cases ordered fractional with
    ⟨negative, magnitude, rfl, notWhole⟩ | ⟨_ | _, rfl⟩
  · intro same
    rw [place, finitePlace_inj] at same
    have divides : unitsPerOne ∣ magnitude.units := by
      rw [← natAbs_signed negative magnitude.units, same, Int.natAbs_mul, Int.natAbs_natCast]
      exact Nat.dvd_mul_left _ _
    rw [← Magnitude.whole?_isSome_iff, notWhole] at divides
    simp at divides
  · exact (finitePlace_lt_top _).ne'
  · exact (bot_lt_finitePlace _).ne

theorem isEqual_integer_iff {n : Numeral} {value : ℤ} :
    n.isEqual (.integer value) = true ↔ n.toInt? = some value := by
  constructor
  · intro equal
    have ordered := (isOrdered_of_isEqual equal).1
    have place := place_of_isEqual equal
    cases whole : n.toInt? with
    | none => exact absurd place (not_whole_of_place whole ordered)
    | some other => rw [integer_place_inj.mp ((place_of_toInt? whole).symm.trans place)]
  · intro whole
    have ordered : n.IsOrdered := by
      rintro rfl
      simp [toInt?, Double.toInt?] at whole
    exact (isEqual_iff ordered (by simp [IsOrdered])).mpr (place_of_toInt? whole)

theorem isSome_toInt?_congr {a b : Numeral} (first : a.IsOrdered) (second : b.IsOrdered)
    (same : a.place = b.place) : a.toInt?.isSome = b.toInt?.isSome := by
  cases wholeA : a.toInt? with
  | some value =>
      cases wholeB : b.toInt? with
      | some other => rfl
      | none => exact absurd (same ▸ place_of_toInt? wholeA) (not_whole_of_place wholeB second)
  | none =>
      cases wholeB : b.toInt? with
      | some other =>
          exact absurd (same.trans (place_of_toInt? wholeB)) (not_whole_of_place wholeA first)
      | none => rfl

theorem infinite_text (negative : Bool) :
    (Numeral.double (.infinite negative)).canonicalText =
      (if negative then "-Infinity" else "Infinity") := by
  cases negative <;> rfl

/-- The text of a number that is not whole is that of no integer. -/
theorem canonicalText_ne_integerText {n : Numeral} (ordered : n.IsOrdered)
    (fractional : n.toInt? = none) (value : ℤ) : n.canonicalText ≠ integerText value := by
  intro same
  rcases fractional_cases ordered fractional with
    ⟨negative, magnitude, rfl, notWhole⟩ | ⟨negative, rfl⟩
  · have read := readNumber?_canonicalText ordered fractional
    rw [same] at read
    exact readNumber?_integerText _ _ _ read
  · have letter : 'I' ∈ (integerText value).toList := by
      rw [← same, infinite_text]
      cases negative <;> decide
    rw [integerText_toList, List.mem_append] at letter
    rcases letter with inSign | inDigits
    · split at inSign <;> simp at inSign
    · have isDigit := isDigit_of_mem_decimalDigits inDigits
      simp at isDigit

/-- What a canonical text of a number starts with. -/
theorem canonicalText_head {n : Numeral} (ordered : n.IsOrdered) :
    ∃ c rest, n.canonicalText.toList = c :: rest ∧ (c.isDigit = true ∨ c = '-' ∨ c = 'I') := by
  cases whole : n.toInt? with
  | some value =>
      rw [canonicalText_whole whole, integerText_toList]
      split
      · exact ⟨'-', _, rfl, .inr (.inl rfl)⟩
      · obtain ⟨c, rest, digits⟩ := List.exists_cons_of_ne_nil (decimalDigits_ne_nil value.natAbs)
        refine ⟨c, rest, by rw [List.nil_append, digits], .inl ?_⟩
        exact isDigit_of_mem_decimalDigits (digits ▸ List.mem_cons_self)
  | none =>
      have read := readNumber?_canonicalText ordered whole
      rcases fractional_cases ordered whole with ⟨negative, magnitude, rfl, _⟩ | ⟨negative, rfl⟩
      · obtain ⟨c, rest, text, head⟩ := Json.readNumber?_head read
        exact ⟨c, rest, text, head.imp_right .inl⟩
      · rw [infinite_text]
        cases negative with
        | false => exact ⟨'I', _, rfl, .inr (.inr rfl)⟩
        | true => exact ⟨'-', _, rfl, .inr (.inl rfl)⟩

/-- Among numbers that are not whole, a text stands for one number only. -/
theorem fractional_of_text {a b : Numeral} (first : a.IsOrdered) (second : b.IsOrdered)
    (fractionalA : a.toInt? = none) (fractionalB : b.toInt? = none)
    (same : a.canonicalText = b.canonicalText) : a = b := by
  have read := readNumber?_canonicalText first fractionalA
  rw [same, readNumber?_canonicalText second fractionalB] at read
  rcases fractional_cases first fractionalA with
    ⟨negative, magnitude, rfl, _⟩ | ⟨negative, rfl⟩
  · rcases fractional_cases second fractionalB with ⟨sign, other, rfl, _⟩ | ⟨sign, rfl⟩
    · simp only [reading?, Option.some.injEq, Prod.mk.injEq, Except.ok.injEq] at read
      exact read.1.symm
    · simp [reading?] at read
  · rcases fractional_cases second fractionalB with ⟨sign, other, rfl, _⟩ | ⟨sign, rfl⟩
    · simp [reading?] at read
    · rw [infinite_text, infinite_text] at same
      cases negative <;> cases sign <;> first | rfl | simp at same

theorem fractional_of_place {a b : Numeral} (first : a.IsOrdered) (second : b.IsOrdered)
    (fractionalA : a.toInt? = none) (fractionalB : b.toInt? = none)
    (same : a.place = b.place) : a = b := by
  rcases fractional_cases first fractionalA with
    ⟨negative, magnitude, rfl, notWhole⟩ | ⟨negative, rfl⟩
  · rcases fractional_cases second fractionalB with ⟨sign, other, rfl, _⟩ | ⟨sign, rfl⟩
    · rw [place, place, finitePlace_inj] at same
      have units : magnitude.units = other.units := by
        rw [← natAbs_signed negative magnitude.units, same, natAbs_signed]
      have nonzero : magnitude.units ≠ 0 := by
        intro zero
        have whole : unitsPerOne ∣ magnitude.units := zero ▸ Nat.dvd_zero _
        rw [← Magnitude.whole?_isSome_iff, notWhole] at whole
        simp at whole
      have equal := Magnitude.ext units
      subst equal
      have sameSign : negative = sign := by
        cases negative <;> cases sign <;> simp [signed] at same ⊢ <;> omega
      rw [sameSign]
    · cases sign with
      | false => exact absurd same (finitePlace_lt_top _).ne
      | true => exact absurd same (bot_lt_finitePlace _).ne'
  · rcases fractional_cases second fractionalB with ⟨sign, other, rfl, _⟩ | ⟨sign, rfl⟩
    · cases negative with
      | false => exact absurd same.symm (finitePlace_lt_top _).ne
      | true => exact absurd same.symm (bot_lt_finitePlace _).ne'
    · cases negative <;> cases sign <;> first | rfl | simp [place] at same

/-- Canonical texts of numbers agree exactly when the numbers are equal. -/
theorem canonicalText_eq_iff {a b : Numeral} (first : a.IsOrdered) (second : b.IsOrdered) :
    a.canonicalText = b.canonicalText ↔ a.place = b.place := by
  cases wholeA : a.toInt? with
  | some value =>
      rw [canonicalText_whole wholeA, place_of_toInt? wholeA]
      cases wholeB : b.toInt? with
      | some other =>
          rw [canonicalText_whole wholeB, place_of_toInt? wholeB]
          exact ⟨fun same => by rw [integerText_injective same],
            fun same => by rw [integer_place_inj.mp same]⟩
      | none =>
          exact ⟨fun same => absurd same.symm (canonicalText_ne_integerText second wholeB value),
            fun same => absurd same.symm (not_whole_of_place wholeB second)⟩
  | none =>
      cases wholeB : b.toInt? with
      | some other =>
          rw [canonicalText_whole wholeB, place_of_toInt? wholeB]
          exact ⟨fun same => absurd same (canonicalText_ne_integerText first wholeA other),
            fun same => absurd same (not_whole_of_place wholeA first)⟩
      | none =>
          exact ⟨fun same => by rw [fractional_of_text first second wholeA wholeB same],
            fun same => by rw [fractional_of_place first second wholeA wholeB same]⟩

end Numeral

end AnimationGrammar
