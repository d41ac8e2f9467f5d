import AnimationGrammar.Proofs.Json.ReadBack
import AnimationGrammar.Settings.Diagnosis
import Mathlib.Algebra.BigOperators.Group.List.Basic

/-!
What is written is scanned.

The reader that diagnoses a text accepts a text in quotes whatever it stands for, and behind it comes
back to where the quotes end.  It accepts the digits of a whole number as long as there are not too many
of them, and gives up behind the last one that it allows.
-/

namespace AnimationGrammar.Diagnosis

open Json

/-! ### The length of a text in bytes -/

theorem byteLength_eq (text : List Char) : byteLength text = (text.map Char.utf8Size).sum := by
  have counted : ∀ start, text.foldl (fun length c => length + c.utf8Size) start =
      start + (text.map Char.utf8Size).sum := by
    induction text with
    | nil => exact fun start => rfl
    | cons c rest inductionHypothesis =>
        intro start
        rw [List.foldl_cons, inductionHypothesis, List.map_cons, List.sum_cons, Nat.add_assoc]
  rw [byteLength, counted, Nat.zero_add]

theorem byteLength_append (first second : List Char) :
    byteLength (first ++ second) = byteLength first + byteLength second := by
  rw [byteLength_eq, byteLength_eq, byteLength_eq, List.map_append, List.sum_append]

theorem length_le_byteLength (text : List Char) : text.length ≤ byteLength text := by
  have each : ∀ size ∈ text.map Char.utf8Size, 1 ≤ size := by
    rw [List.forall_mem_map]
    exact fun c _ => c.utf8Size_pos
  have sum := List.length_le_sum_of_one_le _ each
  rwa [List.length_map, ← byteLength_eq] at sum

/-! ### Texts in quotes -/

theorem scanUnit_hexText {unit : Nat} (small : unit < 0x10000) (rest : List Char) :
    scanUnit (hexText 4 unit ++ rest) = .ok (unit, rest) := by
  have enough : ¬ byteLength (hexText 4 unit ++ rest) < 4 := by
    have long := length_le_byteLength (hexText 4 unit ++ rest)
    rw [List.length_append, hexText_four] at long
    simp only [List.length_cons, List.length_nil] at long
    rw [hexText_four]
    omega
  have digit (n : Nat) : hexValue? (hexDigitChar (n % 16)) = some (n % 16) :=
    hexValue?_hexDigitChar _ (Nat.mod_lt _ (by decide))
  rw [scanUnit, if_neg enough, hexText_four]
  simp only [List.cons_append, List.nil_append, scanHexDigits, digit, Except.ok.injEq,
    Prod.mk.injEq, and_true]
  omega

theorem scanEscape_short {c letter : Char} (escape : shortEscape? c = some letter)
    (rest : List Char) : scanEscape (letter :: rest) = .ok rest := by
  obtain ⟨meaning, notUnit⟩ := escapedChar?_of_short escape
  rw [scanEscape]
  · rw [meaning]
  · exact notUnit

theorem scanString_plainEscaped (fuel : Nat) (c : Char) (rest : List Char) :
    scanString (fuel + 1) (plainEscaped c ++ rest) = scanString fuel rest := by
  rw [plainEscaped]
  split
  next letter escape =>
      rw [List.cons_append, List.cons_append, List.nil_append, scanString,
        scanEscape_short escape]
  next plain =>
      split
      next control =>
          have noLow : isLowSurrogate c.toNat = false := by
            simp only [isLowSurrogate, Bool.and_eq_false_iff, decide_eq_false_iff_not]
            omega
          have noHigh : isHighSurrogate c.toNat = false := by
            simp only [isHighSurrogate, Bool.and_eq_false_iff, decide_eq_false_iff_not]
            omega
          rw [unitEscape, List.cons_append, List.cons_append, scanString, scanEscape,
            scanUnit_hexText (by omega)]
          simp only [noLow, noHigh, Bool.false_eq_true, if_false]
      next visible =>
          obtain ⟨noQuote, noEscape⟩ := ne_marks_of_plain plain
          rw [List.cons_append, List.nil_append, scanString]
          · rw [if_neg visible]
          · exact noQuote
          · exact noEscape

theorem plainEscaped_length_pos (c : Char) : 0 < (plainEscaped c).length := by
  rw [plainEscaped]
  split
  · exact Nat.zero_lt_succ _
  · split <;> exact Nat.zero_lt_succ _

theorem scanString_flatMap (content rest : List Char) {fuel : Nat}
    (enough : (content.flatMap plainEscaped).length < fuel) :
    scanString fuel (content.flatMap plainEscaped ++ '"' :: rest) = .ok rest := by
  induction content generalizing fuel with
  | nil =>
      obtain ⟨fuel, rfl⟩ := Nat.exists_eq_add_one.mpr (Nat.zero_lt_of_lt enough)
      rw [List.flatMap_nil, List.nil_append, scanString]
  | cons c content inductionHypothesis =>
      obtain ⟨fuel, rfl⟩ := Nat.exists_eq_add_one.mpr (Nat.zero_lt_of_lt enough)
      have some := plainEscaped_length_pos c
      rw [List.flatMap_cons, List.length_append] at enough
      rw [List.flatMap_cons, List.append_assoc, scanString_plainEscaped,
        inductionHypothesis (by omega)]

theorem scanString_quoted (content : String) (rest : List Char) :
    ∃ body, (plainQuoted content).toList ++ rest = '"' :: body ∧
      scanString (body.length + 1) body = .ok rest := by
  refine ⟨content.toList.flatMap plainEscaped ++ '"' :: rest, ?_, ?_⟩
  · rw [plainQuoted_toList, List.cons_append, List.append_assoc, List.singleton_append]
  · apply scanString_flatMap
    rw [List.length_append, List.length_cons]
    omega

theorem scanValue_quoted (fuel : Nat) (content : String) (rest : List Char) :
    scanValue (fuel + 1) ((plainQuoted content).toList ++ rest) = .ok rest := by
  obtain ⟨body, quoted, scanned⟩ := scanString_quoted content rest
  rw [quoted, scanValue, scanned]

/-! ### Whole numbers -/

theorem scanUnsigned_decimalDigits (n : Nat) (rest : List Char) :
    scanUnsigned (decimalDigits n ++ '\n' :: rest) =
      if Json.digitLimit < digitCount n then
        .error (.numberOutOfRange, (decimalDigits n ++ '\n' :: rest).drop (Json.digitLimit + 1))
      else .ok ('\n' :: rest) := by
  rcases Nat.eq_zero_or_pos n with rfl | positive
  · rfl
  · obtain ⟨first, digits, written, digit, nonzero⟩ := head_decimalDigits positive
    have ends : EndsDigits ('\n' :: rest) := by simp [EndsDigits]
    have taken := takeDigits_append (fun c => isDigit_of_mem_decimalDigits (n := n)) ends
    have noWord : first ≠ 'I' := by
      rintro rfl
      simp at digit
    have whole : scanUnsigned (decimalDigits n ++ '\n' :: rest) =
        scanWhole (decimalDigits n ++ '\n' :: rest) := by
      rw [written, List.cons_append, scanUnsigned]
      · rw [if_pos digit]
      · exact fun _ _ same _ => nonzero same
      · exact noWord
    rw [whole, scanWhole, taken]
    rfl

theorem scanValue_digit (fuel : Nat) {c : Char} (digit : c.isDigit = true) (rest : List Char) :
    scanValue (fuel + 1) (c :: rest) = scanUnsigned (c :: rest) := by
  unfold scanValue
  split <;> simp_all

/-! ### Objects -/

/-- The members of an object from what stands behind one of them: the end, or the next member. -/
def scanBehind (fuel : Nat) (text : List Char) : Scan :=
  match skipSpace text with
  | [] => .error (.endInObject, [])
  | '\x7d' :: rest => .ok rest
  | ',' :: rest =>
      match skipSpace rest with
      | [] => .error (.endInValue, [])
      | '\x7d' :: rest => .error (.trailingComma, '\x7d' :: rest)
      | rest => scanMembers fuel rest
  | rest => .error (.objectCommaExpected, rest)

theorem scanMembers_quoted (name : String) {body : List Char} (starts : StartsValue body)
    (fuel : Nat) (rest : List Char) :
    scanMembers (fuel + 1) ((plainQuoted name).toList ++ ':' :: ' ' :: (body ++ rest)) =
      (scanValue fuel (body ++ rest)).bind (scanBehind fuel) := by
  obtain ⟨text, quoted, scanned⟩ := scanString_quoted name (':' :: ' ' :: (body ++ rest))
  have colon : skipSpace (':' :: ' ' :: (body ++ rest)) = ':' :: ' ' :: (body ++ rest) := rfl
  have value : skipSpace (' ' :: (body ++ rest)) = body ++ rest :=
    skipSpace_of_starts (starts.append rest)
  rw [quoted, scanMembers, scanned]
  simp only [colon, value]
  cases scanValue fuel (body ++ rest) <;> rfl

section
variable {gap text : List Char} (isGap : IsGap gap) (starts : StartsValue text)

include isGap starts

theorem scanBehind_comma (fuel : Nat) :
    scanBehind fuel (',' :: (gap ++ text)) = scanMembers fuel text := by
  rw [scanBehind, skipSpace_comma]
  simp only [isGap.skipSpace_append, skipSpace_of_starts starts]
  obtain ⟨c, body, rfl, start⟩ := starts
  split
  next ended => cases ended
  next closed =>
      cases closed
      exact absurd (by decide) start
  · rfl

theorem scanValue_members (fuel : Nat) :
    scanValue (fuel + 1) ('\x7b' :: (gap ++ text)) = scanMembers fuel text := by
  rw [scanValue, isGap.skipSpace_append, skipSpace_of_starts starts]
  obtain ⟨c, body, rfl, start⟩ := starts
  split
  next ended => cases ended
  next closed =>
      cases closed
      exact absurd (by decide) start
  · rfl

end

/-! ### Lines and columns -/

/-- The lines are counted in what stands before the rest. -/
theorem lineAndColumn_eq {text rest before : List Char} :
    text.take (text.length - rest.length) = before → lineAndColumn text rest =
      match rest with
      | [] => (before.count '\n' + 1, byteLength (before.reverse.takeWhile (· ≠ '\n')).reverse)
      | '\n' :: _ => (before.count '\n' + 2, 0)
      | _ => (before.count '\n' + 1,
          byteLength (before.reverse.takeWhile (· ≠ '\n')).reverse + 1) := by
  rintro rfl
  rfl

/-- The rest of a text begins on the line that started at the last line break before it. -/
theorem lineAndColumn_append {line : List Char} (noBreak : '\n' ∉ line) (before rest : List Char) :
    lineAndColumn (before ++ '\n' :: (line ++ rest)) rest =
      match rest with
      | [] => (before.count '\n' + 2, byteLength line)
      | '\n' :: _ => (before.count '\n' + 3, 0)
      | _ => (before.count '\n' + 2, byteLength line + 1) := by
  have regrouped : before ++ '\n' :: (line ++ rest) = (before ++ '\n' :: line) ++ rest := by simp
  have taken : (before ++ '\n' :: (line ++ rest)).take
      ((before ++ '\n' :: (line ++ rest)).length - rest.length) = before ++ '\n' :: line := by
    rw [regrouped, List.length_append, Nat.add_sub_cancel, List.take_left]
  have breaks : (before ++ '\n' :: line).count '\n' = before.count '\n' + 1 := by
    rw [List.count_append, List.count_cons_self, List.count_eq_zero_of_not_mem noBreak]
  have plain : ∀ c ∈ line.reverse, decide (c ≠ '\n') = true := by
    intro c membership
    rw [decide_eq_true_iff]
    rintro rfl
    exact noBreak (List.mem_reverse.mp membership)
  have lastLine : ((before ++ '\n' :: line).reverse.takeWhile (· ≠ '\n')).reverse = line := by
    rw [List.reverse_append, List.reverse_cons, List.append_assoc,
      List.takeWhile_append_of_pos plain, List.singleton_append,
      List.takeWhile_cons_of_neg (by simp), List.append_nil, List.reverse_reverse]
  rw [lineAndColumn_eq taken, breaks, lastLine]

end AnimationGrammar.Diagnosis
