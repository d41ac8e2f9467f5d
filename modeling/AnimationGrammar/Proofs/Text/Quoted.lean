import AnimationGrammar.Json.Reader
import AnimationGrammar.Text.Quoted
import Mathlib.Tactic.Common

/-!
Quoted texts read back.

The reader of JSON takes a text in quotes for what was quoted, whatever follows it.  So a quoted text
shows where it ends, and what it stands for.
-/

namespace AnimationGrammar

namespace Json

theorem hexValue?_hexDigitChar : ∀ digit < 16, hexValue? (hexDigitChar digit) = some digit := by
  decide

theorem hexText_four (n : Nat) :
    hexText 4 n = [hexDigitChar (n / 16 / 16 / 16 % 16), hexDigitChar (n / 16 / 16 % 16),
      hexDigitChar (n / 16 % 16), hexDigitChar (n % 16)] := rfl

theorem hexUnit?_hexText {unit : Nat} (small : unit < 0x10000) :
    hexUnit? (hexDigitChar (unit / 16 / 16 / 16 % 16)) (hexDigitChar (unit / 16 / 16 % 16))
      (hexDigitChar (unit / 16 % 16)) (hexDigitChar (unit % 16)) = some unit := by
  rw [hexUnit?, hexValue?_hexDigitChar _ (Nat.mod_lt _ (by decide)),
    hexValue?_hexDigitChar _ (Nat.mod_lt _ (by decide)),
    hexValue?_hexDigitChar _ (Nat.mod_lt _ (by decide)),
    hexValue?_hexDigitChar _ (Nat.mod_lt _ (by decide))]
  simp only [Option.some.injEq]
  omega

/-- A character that was read stands in front of what is read after it. -/
def prepend (c : Char) (read : Reading (List Char)) : Reading (List Char) :=
  read.map fun (content, rest) => (c :: content, rest)

theorem escapedChar?_of_short {c letter : Char} (escape : shortEscape? c = some letter) :
    escapedChar? letter = some c ∧ letter ≠ 'u' := by
  rw [shortEscape?.eq_def] at escape
  split at escape <;> cases escape <;> decide

theorem readString_short {start : Nat} {c letter : Char} {rest : List Char}
    (escape : shortEscape? c = some letter) :
    readString start ('\\' :: letter :: rest) = prepend c (readString start rest) := by
  obtain ⟨meaning, notUnit⟩ := escapedChar?_of_short escape
  rw [readString]
  · rw [meaning]
    rfl
  · exact fun _ _ _ _ _ same _ => notUnit same
  · exact notUnit

theorem ne_marks_of_plain {c : Char} (plain : shortEscape? c = none) : c ≠ '"' ∧ c ≠ '\\' := by
  constructor
  · rintro rfl
    simp [shortEscape?] at plain
  · rintro rfl
    simp [shortEscape?] at plain

theorem readString_plain {start : Nat} {c : Char} {rest : List Char}
    (plain : shortEscape? c = none) (visible : 32 ≤ c.toNat) :
    readString start (c :: rest) = prepend c (readString start rest) := by
  obtain ⟨noQuote, noEscape⟩ := ne_marks_of_plain plain
  rw [readString]
  · rw [if_neg (by omega)]
    rfl
  · exact noQuote
  · exact fun same _ => noEscape same
  · exact fun _ _ _ _ _ same _ => noEscape same
  · exact fun _ same _ => noEscape same
  · exact fun _ _ same _ => noEscape same

theorem readString_unit {start unit : Nat} {rest : List Char} (small : unit < 0x10000)
    (noHigh : isHighSurrogate unit = false) (more : rest ≠ []) :
    readString start (unitEscape unit ++ rest) =
      prepend (unitChar unit) (readString start rest) := by
  have more : rest.isEmpty = false := by simpa using more
  rw [unitEscape, hexText_four]
  simp only [List.cons_append, List.nil_append]
  rw [readString]
  simp only [hexUnit?_hexText small, more, noHigh, Bool.false_eq_true, if_false]
  rfl

theorem readString_pair {start high low : Nat} {rest : List Char} (highHalf : isHighSurrogate high)
    (lowHalf : isLowSurrogate low) (more : rest ≠ []) :
    readString start (unitEscape high ++ (unitEscape low ++ rest)) =
      prepend (pairChar high low) (readString start rest) := by
  have smallHigh : high < 0x10000 := by
    simp [isHighSurrogate] at highHalf
    omega
  have smallLow : low < 0x10000 := by
    simp [isLowSurrogate] at lowHalf
    omega
  cases rest with
  | nil => exact absurd rfl more
  | cons next later =>
      rw [unitEscape, unitEscape, hexText_four, hexText_four]
      simp only [List.cons_append, List.nil_append]
      rw [readString]
      simp only [hexUnit?_hexText smallHigh, hexUnit?_hexText smallLow, List.isEmpty_cons, highHalf,
        lowHalf, Bool.false_eq_true, if_false, if_true]
      rfl

theorem char_noSurrogate (c : Char) :
    (c.toNat < 0xD800 ∨ 0xDFFF < c.toNat) ∧ c.toNat < 0x110000 := by
  have valid : c.toNat < 0xD800 ∨ 0xDFFF < c.toNat ∧ c.toNat < 0x110000 := c.valid
  omega

theorem readString_charUnit {start : Nat} {c : Char} (small : c.toNat < 0x10000) {rest : List Char}
    (more : rest ≠ []) :
    readString start (unitEscape c.toNat ++ rest) = prepend c (readString start rest) := by
  obtain ⟨noSurrogate, -⟩ := char_noSurrogate c
  have noHigh : isHighSurrogate c.toNat = false := by
    simp only [isHighSurrogate, Bool.and_eq_false_iff, decide_eq_false_iff_not]
    omega
  have noLow : isLowSurrogate c.toNat = false := by
    simp only [isLowSurrogate, Bool.and_eq_false_iff, decide_eq_false_iff_not]
    omega
  rw [readString_unit small noHigh more, unitChar, noHigh, noLow, Bool.or_false,
    if_neg (by decide), Char.ofNat_toNat]

theorem readString_asciiEscaped {start : Nat} (c : Char) {rest : List Char} (more : rest ≠ []) :
    readString start (asciiEscaped c ++ rest) = prepend c (readString start rest) := by
  obtain ⟨noSurrogate, valid⟩ := char_noSurrogate c
  rw [asciiEscaped]
  split
  next letter escape => exact readString_short escape
  next plain =>
      split
      next visible =>
          simp only [Bool.and_eq_true, decide_eq_true_eq] at visible
          exact readString_plain plain visible.1
      · split
        next small => exact readString_charUnit small more
        next large =>
            have highHalf : isHighSurrogate (surrogates c.toNat).1 = true := by
              have inside : 0xD800 + (c.toNat - 0x10000) / 0x400 < 0xDC00 := by omega
              simp [isHighSurrogate, surrogates, inside]
            have lowHalf : isLowSurrogate (surrogates c.toNat).2 = true := by
              have inside : 0xDC00 + (c.toNat - 0x10000) % 0x400 < 0xE000 := by omega
              simp [isLowSurrogate, surrogates, inside]
            have code : 0x10000 + ((surrogates c.toNat).1 - 0xD800) * 0x400 +
                ((surrogates c.toNat).2 - 0xDC00) = c.toNat := by
              simp only [surrogates]
              omega
            have joined : pairChar (surrogates c.toNat).1 (surrogates c.toNat).2 = c := by
              rw [pairChar, code, Char.ofNat_toNat]
            rw [List.append_assoc, readString_pair highHalf lowHalf more, joined]

theorem readString_plainEscaped {start : Nat} (c : Char) {rest : List Char} (more : rest ≠ []) :
    readString start (plainEscaped c ++ rest) = prepend c (readString start rest) := by
  rw [plainEscaped]
  split
  next letter escape => exact readString_short escape
  next plain =>
      split
      next control => exact readString_charUnit (by omega) more
      next visible => exact readString_plain plain (by omega)

/-- A text of which every character reads back reads back up to the closing quote. -/
theorem readString_flatMap {start : Nat} {escape : Char → List Char}
    (reads : ∀ c {rest}, rest ≠ [] →
      readString start (escape c ++ rest) = prepend c (readString start rest))
    (content rest : List Char) :
    readString start (content.flatMap escape ++ '"' :: rest) = .ok (content, rest) := by
  induction content with
  | nil =>
      rw [List.flatMap_nil, List.nil_append, readString]
  | cons c content inductionHypothesis =>
      rw [List.flatMap_cons, List.append_assoc, reads c (by simp), inductionHypothesis]
      rfl

/-- A quoted text reads back, whatever follows it. -/
theorem readString_escaped {start : Nat} (content rest : List Char) :
    readString start (content.flatMap asciiEscaped ++ '"' :: rest) = .ok (content, rest) :=
  readString_flatMap readString_asciiEscaped content rest

end Json

theorem asciiQuoted_toList (text : String) :
    (asciiQuoted text).toList = '"' :: (text.toList.flatMap asciiEscaped ++ ['"']) := by
  rw [asciiQuoted, String.toList_ofList, List.cons_append]

theorem plainQuoted_toList (text : String) :
    (plainQuoted text).toList = '"' :: (text.toList.flatMap plainEscaped ++ ['"']) := by
  rw [plainQuoted, String.toList_ofList, List.cons_append]

theorem plainEscaped_visible (c : Char) : ∀ d ∈ plainEscaped c, 32 ≤ d.toNat := by
  rw [plainEscaped]
  split
  next letter escape =>
      have visible : 32 ≤ letter.toNat := by
        rw [shortEscape?.eq_def] at escape
        split at escape <;> cases escape <;> decide
      rw [List.forall_mem_cons, List.forall_mem_singleton]
      exact ⟨by decide, visible⟩
  next plain =>
      split
      next control =>
          have hexDigit : ∀ digit < 16, 32 ≤ (hexDigitChar digit).toNat := by decide
          have visible (n : Nat) : 32 ≤ (hexDigitChar (n % 16)).toNat :=
            hexDigit _ (Nat.mod_lt _ (by decide))
          rw [unitEscape, Json.hexText_four]
          simp only [List.forall_mem_cons, List.not_mem_nil, false_imp_iff, implies_true, and_true]
          exact ⟨by decide, by decide, visible _, visible _, visible _, visible _⟩
      next visible =>
          rw [List.forall_mem_singleton]
          omega

/-- No control character stands in a quoted text. -/
theorem plainQuoted_visible (text : String) : ∀ c ∈ (plainQuoted text).toList, 32 ≤ c.toNat := by
  have quote : 32 ≤ '"'.toNat := by decide
  rw [plainQuoted_toList, List.forall_mem_cons, List.forall_mem_append, List.forall_mem_singleton]
  refine ⟨quote, fun c membership => ?_, quote⟩
  obtain ⟨original, _, inside⟩ := List.mem_flatMap.mp membership
  exact plainEscaped_visible original c inside

/-- A quoted text shows what it stands for and where it ends. -/
theorem asciiQuoted_append_inj {first second : String} {rest later : List Char}
    (same : (asciiQuoted first).toList ++ rest = (asciiQuoted second).toList ++ later) :
    first = second ∧ rest = later := by
  have read (text : String) (after : List Char) :
      Json.readString 0 ((asciiQuoted text).toList ++ after).tail = .ok (text.toList, after) := by
    rw [asciiQuoted_toList, List.cons_append, List.tail_cons, List.append_assoc,
      List.singleton_append, Json.readString_escaped]
  have reads := read first rest
  rw [same, read second later, Except.ok.injEq, Prod.mk.injEq, String.toList_inj] at reads
  exact ⟨reads.1.symm, reads.2.symm⟩

theorem asciiQuoted_injective {first second : String} (same : asciiQuoted first = asciiQuoted second) :
    first = second := by
  have texts : (asciiQuoted first).toList ++ [] = (asciiQuoted second).toList ++ [] := by rw [same]
  exact (asciiQuoted_append_inj texts).1

end AnimationGrammar
