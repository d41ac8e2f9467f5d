import AnimationGrammar.Proofs.Text.Quoted
import AnimationGrammar.Yaml.Document
import Mathlib.Data.List.TakeDrop
import Mathlib.Data.List.TakeWhile

/-!
Keys in hexadecimal.

A decimal integer has a limited number of digits.  One in hexadecimal has not, and after a mark of its
own it may be a key of any length.  Such a key is followed here through the scanner, the parser and the
reading of scalars: what comes out is the number that was written.
-/

namespace AnimationGrammar.Yaml

open Json (hexValue? hexValue?_hexDigitChar)

/-! ### Digits -/

theorem forall_mem_hexText {P : Char → Prop} (digits : ∀ digit < 16, P (hexDigitChar digit))
    (width n : Nat) : ∀ c ∈ hexText width n, P c := by
  induction width generalizing n with
  | zero => simp [hexText]
  | succ width inductionHypothesis =>
      intro c member
      rcases List.mem_append.mp member with earlier | last
      · exact inductionHypothesis (n / 16) c earlier
      · obtain rfl := List.mem_singleton.mp last
        exact digits (n % 16) (Nat.mod_lt n (by decide))

theorem hexText_ne_nil {width n : Nat} (positive : 0 < width) : hexText width n ≠ [] := by
  cases width with
  | zero => exact absurd positive (Nat.lt_irrefl 0)
  | succ width => simp [hexText]

theorem baseValue_hexText {width n : Nat} (bound : n < Nat.pow 16 width) :
    baseValue 16 (hexText width n) = n := by
  induction width generalizing n with
  | zero => simp_all [hexText, baseValue]
  | succ width inductionHypothesis =>
      have higher : baseValue 16 (hexText width (n / 16)) = n / 16 :=
        inductionHypothesis (Nat.div_lt_of_lt_mul (Nat.mul_comm _ 16 ▸ bound))
      unfold baseValue at higher
      simp only [hexText, baseValue, List.foldl_append, List.foldl_cons, List.foldl_nil, higher,
        hexValue?_hexDigitChar _ (Nat.mod_lt n (by decide)), Option.getD_some]
      omega

/-- A number in hexadecimal, with the mark of the base. -/
def hexadecimal (width n : Nat) : List Char := '0' :: 'x' :: hexText width n

theorem forall_mem_hexadecimal {P : Char → Prop} (mark : P 'x')
    (digits : ∀ digit < 16, P (hexDigitChar digit)) (width n : Nat) :
    ∀ c ∈ hexadecimal width n, P c := by
  intro c member
  rcases List.mem_cons.mp member with rfl | member
  · exact digits 0 (by decide)
  · rcases List.mem_cons.mp member with rfl | member
    · exact mark
    · exact forall_mem_hexText digits width n c member

/-! ### Scalars -/

theorem span_of_forall {p : Char → Bool} {text : List Char} (holds : ∀ c ∈ text, p c = true) :
    text.span p = (text, []) := by
  rw [List.span_eq_takeWhile_dropWhile]
  exact Prod.ext (List.takeWhile_eq_self_iff.mpr holds) (List.dropWhile_eq_nil_iff.mpr holds)

theorem isDoubleText_hexadecimal (width n : Nat) : isDoubleText (hexadecimal width n) = false := by
  have noPoint : ∀ c ∈ hexadecimal width n, (c != '.') = true :=
    forall_mem_hexadecimal (by decide) (by decide) width n
  have whole : (withoutSign (hexadecimal width n)).span (· != '.') = (hexadecimal width n, []) :=
    span_of_forall noPoint
  simp only [isDoubleText, whole]

theorem isIntegerText_hexadecimal {width n : Nat} (positive : 0 < width) :
    isIntegerText (hexadecimal width n) = true := by
  have digits : ∀ c ∈ hexText width n, ((hexValue? c).isSome || c == '_') = true :=
    forall_mem_hexText (by decide) width n
  simpa [isIntegerText, hexadecimal, withoutSign, splitSign, hexText_ne_nil positive] using digits

theorem ofSpelling_hexadecimal {width n : Nat} (positive : 0 < width) :
    Tag.ofSpelling (String.ofList (hexadecimal width n)) = .integer := by
  have noBoolean : String.ofList (hexadecimal width n) ∉ Tag.booleanTexts := by
    simp [Tag.booleanTexts, String.ext_iff, hexadecimal]
  simp [Tag.ofSpelling, noBoolean, isDoubleText_hexadecimal, isIntegerText_hexadecimal positive]

theorem ofText_hexadecimal {width n : Nat} (positive : 0 < width) :
    Tag.ofText (String.ofList (hexadecimal width n)) = .integer := by
  have noBreak : ∀ c ∈ hexadecimal width n, c ≠ '\n' :=
    forall_mem_hexadecimal (by decide) (by decide) width n
  have unbroken : String.ofList (hexadecimal width n) ≠ "\n" := by
    simp [String.ext_iff, hexadecimal]
  have unended : (hexadecimal width n).getLast? ≠ some '\n' :=
    fun last => noBreak _ (List.mem_of_getLast? last) rfl
  simp [Tag.ofText, unbroken, unended, ofSpelling_hexadecimal positive]

theorem trimEnds_eq_self {text : List Char} (solid : ∀ c ∈ text, isBlankChar c = false) :
    trimEnds text = text := by
  have trimmed : ∀ part : List Char,
      (∀ c ∈ part, isBlankChar c = false) → trimStart part = part := by
    intro part solid
    cases part with
    | nil => rfl
    | cons c rest =>
        have : isBlankChar c = false := solid c List.mem_cons_self
        simp [trimStart, this]
  rw [trimEnds, trimmed text solid, trimmed text.reverse (by simpa using solid),
    List.reverse_reverse]

theorem splitSign_hexText (width n : Nat) :
    splitSign (hexText width n) = (false, hexText width n) := by
  have noSign : ∀ c ∈ hexText width n, c ≠ '-' ∧ c ≠ '+' :=
    forall_mem_hexText (by decide) width n
  unfold splitSign
  split
  · simp_all
  · simp_all
  · rfl

theorem dropBaseMark_hexText (width n : Nat) :
    dropBaseMark 16 (hexText width n) = hexText width n := by
  have noMark : ∀ c ∈ hexText width n, c ≠ 'x' ∧ c ≠ 'X' :=
    forall_mem_hexText (by decide) width n
  unfold dropBaseMark
  split
  · simp_all
  · rfl

theorem spanBase_hexText (width n : Nat) :
    spanBase 16 (hexText width n) = (hexText width n, []) := by
  have digits : ∀ c ∈ hexText width n, (hexValue? c).any (· < 16) = true :=
    forall_mem_hexText (by decide) width n
  exact span_of_forall digits

theorem readBase_hexText {width n : Nat} (positive : 0 < width) (bound : n < Nat.pow 16 width) :
    readBase 16 (hexText width n) = .ok n := by
  have solid : ∀ c ∈ hexText width n, isBlankChar c = false :=
    forall_mem_hexText (by decide) width n
  have plain : ∀ c ∈ hexText width n, plainDigit c = c :=
    forall_mem_hexText (by decide) width n
  rw [readBase, trimEnds_eq_self solid, List.map_congr_left plain, List.map_id',
    splitSign_hexText]
  simp [dropBaseMark_hexText, spanBase_hexText, hexText_ne_nil positive, signed,
    baseValue_hexText bound]

theorem readInteger_hexadecimal {width n : Nat} (positive : 0 < width) (bound : n < Nat.pow 16 width) :
    readInteger (String.ofList (hexadecimal width n)) = .ok n := by
  have noUnderscore : ∀ c ∈ hexadecimal width n, (c != '_') = true :=
    forall_mem_hexadecimal (by decide) (by decide) width n
  have parts : numberParts (String.ofList (hexadecimal width n)) =
      .ok (false, hexadecimal width n) := by
    rw [numberParts, String.toList_ofList, List.filter_eq_self.mpr noUnderscore]
    rfl
  unfold readInteger
  rw [parts]
  simp only [hexadecimal, bind, Except.bind, readBase_hexText positive bound]
  rfl

/-! ### Tokens -/

/-- A character that a plain scalar goes on with, within its line. -/
def IsWordChar (c : Char) : Prop := isGap c = false ∧ c ≠ ':' ∧ c ≠ '\uFEFF'

instance (c : Char) : Decidable (IsWordChar c) :=
  inferInstanceAs (Decidable (isGap c = false ∧ c ≠ ':' ∧ c ≠ '\uFEFF'))

theorem Cursor.step_wordChar {c : Char} (inWord : IsWordChar c) (rest : List Char)
    (index line column : Nat) :
    Cursor.step ⟨c :: rest, index, line, column⟩ = ⟨rest, index + 1, line, column + 1⟩ := by
  obtain ⟨noGap, -, noMark⟩ := inWord
  have noBreak : isBreak c = false := (Bool.or_eq_false_iff.mp noGap).2
  have noReturn : c ≠ '\r' := by
    rintro rfl
    exact absurd noBreak (by decide)
  simp [step, noReturn, noBreak, noMark]

theorem Cursor.advance_word {word : List Char} (inWord : ∀ c ∈ word, IsWordChar c)
    (rest : List Char) (index line column : Nat) :
    (⟨word ++ rest, index, line, column⟩ : Cursor).advance word.length =
      ⟨rest, index + word.length, line, column + word.length⟩ := by
  induction word generalizing index column with
  | nil => rfl
  | cons c word inductionHypothesis =>
      rw [List.forall_mem_cons] at inWord
      rw [List.cons_append, List.length_cons, advance, step_wordChar inWord.1,
        inductionHypothesis inWord.2, Nat.add_right_comm, Nat.add_right_comm column,
        Nat.add_assoc, Nat.add_assoc column]

theorem plainWord_append {word rest : List Char} (inWord : ∀ c ∈ word, IsWordChar c) :
    plainWord false (word ++ rest) = word ++ plainWord false rest := by
  induction word with
  | nil => rfl
  | cons c word inductionHypothesis =>
      rw [List.forall_mem_cons] at inWord
      obtain ⟨noGap, noColon, -⟩ := inWord.1
      simp [plainWord, noGap, noColon, inductionHypothesis inWord.2]

theorem plainGap_line (rest : List Char) (index line column : Nat) :
    plainGap ⟨'\n' :: ':' :: rest, index, line, column⟩ =
      ⟨[' '], true, ⟨':' :: rest, index + 1, line + 1, 0⟩⟩ := by
  rfl

/-- A word at the end of its line is a plain scalar if the next line is not indented. -/
theorem readPlain_line {first : Char} {word : List Char} (noComment : first ≠ '#')
    (inWord : ∀ c ∈ first :: word, IsWordChar c) (rest : List Char) (index line column : Nat) :
    readPlain false 1 ⟨first :: word ++ '\n' :: ':' :: rest, index, line, column⟩ =
      ⟨first :: word, true, ⟨':' :: rest, index + (first :: word).length + 1, line + 1, 0⟩⟩ := by
  have taken : plainWord false (first :: word ++ '\n' :: ':' :: rest) = first :: word := by
    rw [plainWord_append inWord]
    exact List.append_nil _
  rw [readPlain, plainWords]
  simp only [taken]
  rw [Cursor.advance_word inWord, plainGap_line]
  simp [noComment]

namespace Layout

theorem takeTokens_step {fuel : Nat} {layout prepared next : Layout} {c : Char}
    (ready : layout.prepare = .ok prepared) (stands : prepared.cursor.peek 0 = some c)
    (taken : prepared.takeToken c = .ok next) :
    takeTokens (fuel + 1) layout = takeTokens fuel next := by
  rw [takeTokens, ready]
  simp only [stands, taken]

theorem takePlain_eq {layout saved : Layout} {plain : PlainText}
    (save : layout.saveKey = .ok saved)
    (read : readPlain saved.inFlow (saved.indent + 1) saved.cursor = plain) :
    layout.takePlain = .ok
      { saved.push (.scalar (String.ofList plain.text) true) with
        cursor := plain.cursor
        keyAllowed := plain.endsLine } := by
  subst read
  rw [takePlain, save]
  rfl

/-- Before the key of an entry, after the mark that announces it. -/
def beforeKey (rest : List Char) : Layout where
  cursor := ⟨' ' :: rest, 1, 0, 1⟩
  tokens := [.key, .blockMappingStart]
  indent := 0
  outer := [-1]

/-- At the line after the key, whose scalar is still remembered as a place where a key may begin. -/
def afterKey (key rest : List Char) : Layout where
  cursor := ⟨rest, 2 + key.length + 1, 1, 0⟩
  tokens := [.scalar (String.ofList key) true, .key, .blockMappingStart]
  indent := 0
  outer := [-1]
  keys := [(0, ⟨2, false, 2, 0, 2⟩)]

/-- Before the value of an entry, after its colon. -/
def beforeValue (key rest : List Char) : Layout where
  cursor := ⟨' ' :: rest, 2 + key.length + 2, 1, 1⟩
  tokens := [.value, .scalar (String.ofList key) true, .key, .blockMappingStart]
  indent := 0
  outer := [-1]

theorem takeTokens_mark (fuel : Nat) (rest : List Char) :
    takeTokens (fuel + 1) { cursor := { rest := '?' :: ' ' :: rest } } =
      takeTokens fuel (beforeKey rest) := by
  rfl

theorem takeTokens_key (fuel width n : Nat) (rest : List Char) :
    takeTokens (fuel + 1) (beforeKey (hexadecimal width n ++ '\n' :: ':' :: rest)) =
      takeTokens fuel (afterKey (hexadecimal width n) (':' :: rest)) := by
  have inWord : ∀ c ∈ hexadecimal width n, IsWordChar c :=
    forall_mem_hexadecimal (by decide) (by decide) width n
  let cursor : Cursor := ⟨hexadecimal width n ++ '\n' :: ':' :: rest, 2, 0, 2⟩
  have ready : (beforeKey (hexadecimal width n ++ '\n' :: ':' :: rest)).prepare =
      .ok { beforeKey [] with cursor } := by
    rfl
  have plain : readPlain false 1 cursor =
      ⟨hexadecimal width n, true, ⟨':' :: rest, 2 + (hexadecimal width n).length + 1, 1, 0⟩⟩ :=
    readPlain_line (by decide) inWord rest 2 0 2
  have saved : saveKey { beforeKey [] with cursor } =
      .ok { beforeKey [] with cursor, keys := (afterKey [] []).keys } := by
    rfl
  exact takeTokens_step ready rfl (takePlain_eq saved plain)

theorem takeTokens_colon (fuel : Nat) (key rest : List Char) :
    takeTokens (fuel + 1) (afterKey key (':' :: ' ' :: rest)) =
      takeTokens fuel (beforeValue key rest) := by
  have ready : (afterKey key (':' :: ' ' :: rest)).prepare =
      .ok { afterKey key (':' :: ' ' :: rest) with keys := [] } := by
    rfl
  exact takeTokens_step ready rfl rfl

theorem takeTokens_value (fuel : Nat) (key : List Char) :
    takeTokens (fuel + 2) (beforeValue key ['1', '\n']) =
      .ok [.blockMappingStart, .key, .scalar (String.ofList key) true, .value, .scalar "1" true,
        .blockEnd] := by
  have ready : (beforeValue key ['1', '\n']).prepare = .ok
      { beforeValue key [] with cursor := ⟨['1', '\n'], 2 + key.length + 3, 1, 2⟩ } := by
    rfl
  have read : takeToken
      { beforeValue key [] with cursor := ⟨['1', '\n'], 2 + key.length + 3, 1, 2⟩ } '1' = .ok
      { beforeValue key [] with
        cursor := ⟨[], 2 + key.length + 5, 2, 0⟩
        tokens := .scalar (String.ofList ['1']) true :: (beforeValue key []).tokens
        keys := [(0, ⟨4, false, 2 + key.length + 3, 1, 2⟩)] } := by
    rfl
  rw [takeTokens_step ready rfl read]
  rfl

end Layout

/-- A document of one entry, whose key has a mark of its own. -/
def markedEntry (key : List Char) : List Char :=
  '?' :: ' ' :: (key ++ ['\n', ':', ' ', '1', '\n'])

theorem forall_mem_markedEntry {P : Char → Prop}
    (marks : P '?' ∧ P ' ' ∧ P 'x' ∧ P '\n' ∧ P ':' ∧ P '1')
    (digits : ∀ digit < 16, P (hexDigitChar digit)) (width n : Nat) :
    ∀ c ∈ markedEntry (hexadecimal width n), P c := by
  obtain ⟨question, space, mark, lineFeed, colon, one⟩ := marks
  have inKey : ∀ c ∈ hexadecimal width n, P c := forall_mem_hexadecimal mark digits width n
  simp only [markedEntry, List.forall_mem_cons, List.forall_mem_append]
  exact ⟨question, space, inKey, lineFeed, colon, space, one, lineFeed, by simp⟩

theorem tokensOf_markedEntry (width n : Nat) :
    tokensOf (String.ofList (markedEntry (hexadecimal width n))) =
      .ok [.blockMappingStart, .key, .scalar (String.ofList (hexadecimal width n)) true, .value,
        .scalar "1" true, .blockEnd] := by
  have printable : (markedEntry (hexadecimal width n)).all isPrintable = true :=
    List.all_eq_true.mpr (forall_mem_markedEntry (by decide) (by decide) width n)
  have fuel : (markedEntry (hexadecimal width n)).length + 1 =
      (hexadecimal width n).length + 3 + 2 + 1 + 1 + 1 := by
    simp [markedEntry]
  rw [tokensOf, String.toList_ofList, if_pos printable, fuel, markedEntry, Layout.takeTokens_mark,
    Layout.takeTokens_key, Layout.takeTokens_colon, Layout.takeTokens_value]

/-! ### Documents -/

theorem ofTokens?_entry (key value : String) :
    Node.ofTokens? [.blockMappingStart, .key, .scalar key true, .value, .scalar value true,
        .blockEnd] =
      .ok (some (.mapping .mapping
        [(.scalar (Tag.ofText key) key, .scalar (Tag.ofText value) value)])) := by
  rfl

theorem build_integerEntry {key value : String} {first second : Int}
    (readKey : readInteger key = .ok first) (readValue : readInteger value = .ok second) :
    (Node.mapping .mapping [(.scalar .integer key, .scalar .integer value)]).build 0 =
      .ok (.mapping [(.number (.integer first), .integer second)]) := by
  have key : Node.keyOf 1 (Built.within 1 (Node.scalarValue .integer key)) =
      .ok (.number (.integer first)) := by
    rw [Node.scalarValue, readKey]
    rfl
  have value : Built.within 1 (Node.scalarValue .integer value) = .ok (.integer second) := by
    rw [Node.scalarValue, readValue]
    rfl
  simp [Node.build, Node.buildEntries, Node.isLate, Node.tag, BuiltEntries.all, Built.both, key, value,
    Node.mappingOf, Json.putEntry, Except.map]

/-- A key in hexadecimal is read as the number that it stands for, however long it is. -/
theorem read_hexadecimalKey {width n : Nat} (positive : 0 < width) (bound : n < Nat.pow 16 width) :
    read (String.ofList (markedEntry (hexadecimal width n))) =
      .ok (.mapping [(.number (.integer n), .integer 1)]) := by
  have value : Tag.ofText "1" = .integer := by
    decide
  have readValue : readInteger "1" = .ok 1 := by
    rfl
  simp only [read, tokensOf_markedEntry, bind, Except.bind, ofTokens?_entry, value,
    ofText_hexadecimal positive,
    build_integerEntry (readInteger_hexadecimal positive bound) readValue]
  rfl

end AnimationGrammar.Yaml
