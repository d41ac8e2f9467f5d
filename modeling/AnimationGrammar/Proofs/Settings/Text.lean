import AnimationGrammar.Proofs.Files.FileTree
import AnimationGrammar.Proofs.Settings.Scan
import AnimationGrammar.Settings.Reader

/-!
The text of settings.

Settings are written as an object with three members, one on each line.  Nothing but the indent can make
that text unreadable: its digits have to be few enough for a reader of JSON.  Otherwise the text gives
the settings back.
-/

namespace AnimationGrammar

namespace Settings

open Json (newline newline_isGap ReadsBack ReadsMember StartsValue)

/-! ### Members -/

def memberText (name : String) (body : List Char) : List Char :=
  (plainQuoted name).toList ++ ':' :: ' ' :: body

theorem memberText_append (name : String) (body rest : List Char) :
    memberText name body ++ rest = (plainQuoted name).toList ++ ':' :: ' ' :: (body ++ rest) := by
  rw [memberText, List.append_assoc]
  rfl

theorem startsValue_memberText (name : String) (body : List Char) :
    StartsValue (memberText name body) :=
  (ReadsBack.plainText name).starts.append _

def members (settings : Settings) : List (List Char) :=
  [memberText "log_level" (plainQuoted settings.logLevel.label).toList,
    memberText "schema_dir" (plainQuoted settings.schemaDirectory).toList,
    memberText "json_indent" (decimalDigits settings.jsonIndent)]

theorem integerText_jsonIndent (settings : Settings) :
    (integerText settings.jsonIndent).toList = decimalDigits settings.jsonIndent := by
  rw [integerText, if_neg (by omega), String.toList_ofList, Int.natAbs_natCast]

theorem text_toList (settings : Settings) :
    let gap := (newline 2 1).toList
    settings.text.toList = '\x7b' :: (gap ++ ((',' :: gap).intercalate settings.members ++
      ((newline 2 0).toList ++ ['\x7d']))) := by
  intro gap
  have first : "\x7b\n  \"log_level\": ".toList = '\x7b' :: (gap ++ memberText "log_level" []) := rfl
  have second : ",\n  \"schema_dir\": ".toList = ',' :: (gap ++ memberText "schema_dir" []) := rfl
  have third : ",\n  \"json_indent\": ".toList = ',' :: (gap ++ memberText "json_indent" []) := rfl
  have last : "\n\x7d".toList = (newline 2 0).toList ++ ['\x7d'] := rfl
  unfold text
  simp only [String.toList_append, first, second, third, last, integerText_jsonIndent, members,
    List.intercalate_cons_cons, List.intercalate_singleton, memberText_append, List.append_assoc,
    List.cons_append, List.nil_append]

/-! ### Reading the text -/

def value (settings : Settings) : Value :=
  .object [("log_level", .text settings.logLevel.label),
    ("schema_dir", .text settings.schemaDirectory), ("json_indent", .integer settings.jsonIndent)]

theorem ofLabel?_label (level : LogLevel) : LogLevel.ofLabel? level.label = some level := by
  cases level <;> rfl

theorem ofValue_value (settings : Settings) : ofValue settings.value = .ok settings := by
  have notNegative : ¬ (settings.jsonIndent : ℤ) < 0 := by omega
  simp [ofValue, value, Value.object, readSetting, Value.get?, lookupText, readLevel, readDirectory,
    readIndent, readInteger, ofLabel?_label, notNegative]

/-- Whether the indent has no more digits than a reader of JSON allows. -/
def IsReadable (settings : Settings) : Prop := digitCount settings.jsonIndent ≤ Json.digitLimit

instance (settings : Settings) : Decidable settings.IsReadable :=
  inferInstanceAs (Decidable (digitCount settings.jsonIndent ≤ Json.digitLimit))

theorem IsReadable.isLongNumber {settings : Settings} (readable : settings.IsReadable) :
    (Atom.number (.integer settings.jsonIndent)).isLongNumber = false := by
  have limit : Json.digitLimit = Atom.textDigits := rfl
  have positive : 0 < Atom.textDigits := by decide
  rw [IsReadable, limit] at readable
  rw [Atom.isLongNumber, decide_eq_false_iff_not, not_le, Int.natAbs_natCast]
  generalize Atom.textDigits = digits at readable positive
  exact (digitCount_le_iff positive).mp readable

theorem text_eq_bracketed (settings : Settings) :
    settings.text = Json.bracketed "\x7b" "\x7d" 2 0 (settings.members.map String.ofList) := by
  have same : (settings.members.map String.ofList).map String.toList = settings.members := by
    rw [List.map_map]
    exact List.map_id'' (fun _ => String.toList_ofList) _
  have given : settings.members.map String.ofList ≠ [] := List.cons_ne_nil _ _
  rw [← String.toList_inj, text_toList, Json.bracketed_toList (show "\x7b".toList = ['\x7b'] from rfl)
    (show "\x7d".toList = ['\x7d'] from rfl) 2 0 given, same]

theorem IsReadable.read_text {settings : Settings} (readable : settings.IsReadable) :
    Json.read settings.text = .ok settings.value := by
  apply ReadsBack.read
  rw [text_eq_bracketed]
  apply ReadsBack.object 2 0
  · have keysDiffer : [Atom.text "log_level", .text "schema_dir", .text "json_indent"].Nodup := by
      decide
    exact keysDiffer
  · have named (name : String) (isPlain : plainQuoted name = asciiQuoted name) {item : Value}
        {body : List Char} (reads : ReadsBack item body) :
        ReadsMember (.text name, item) (String.ofList (memberText name body)).toList :=
      ⟨name, body, rfl, by rw [String.toList_ofList, memberText, isPlain], reads⟩
    have digits := ReadsBack.number (Json.readNumber?_integer readable.isLongNumber)
    rw [integerText_jsonIndent] at digits
    refine .cons ?_ (.cons ?_ (.cons ?_ .nil))
    · exact named "log_level" rfl (.plainText _)
    · exact named "schema_dir" rfl (.plainText _)
    · exact named "json_indent" rfl digits

/-! ### Scanning the text -/

open Diagnosis (Scan scanMembers scanBehind scanValue scanUnsigned scanText)

theorem scanMembers_memberText (name : String) {body : List Char} (starts : StartsValue body)
    (fuel : Nat) (rest : List Char) :
    scanMembers (fuel + 1) (memberText name body ++ rest) =
      (scanValue fuel (body ++ rest)).bind (scanBehind fuel) := by
  rw [memberText_append, Diagnosis.scanMembers_quoted name starts]

theorem scanMembers_text (name content : String) {gap next : List Char} (isGap : Json.IsGap gap)
    (starts : StartsValue next) (fuel : Nat) :
    scanMembers (fuel + 2)
        (memberText name (plainQuoted content).toList ++ ',' :: (gap ++ next)) =
      scanMembers (fuel + 1) next := by
  have body := (ReadsBack.plainText content).starts
  rw [scanMembers_memberText name body, Diagnosis.scanValue_quoted, Except.bind,
    Diagnosis.scanBehind_comma isGap starts]

theorem exists_decimalDigits (n : Nat) :
    ∃ first rest, decimalDigits n = first :: rest ∧ first.isDigit = true := by
  obtain ⟨first, rest, written⟩ := List.exists_cons_of_ne_nil (decimalDigits_ne_nil n)
  exact ⟨first, rest, written, isDigit_of_mem_decimalDigits (written ▸ List.mem_cons_self)⟩

theorem scanValue_text (settings : Settings) (fuel : Nat) :
    scanValue (fuel + 5) settings.text.toList =
      (scanUnsigned (decimalDigits settings.jsonIndent ++ ['\n', '\x7d'])).bind
        (scanBehind (fuel + 1)) := by
  obtain ⟨first, rest, written, digit⟩ := exists_decimalDigits settings.jsonIndent
  have isGap := newline_isGap 2 1
  have close : (newline 2 0).toList ++ ['\x7d'] = ['\n', '\x7d'] := rfl
  have starts (name : String) (body rest : List Char) : StartsValue (memberText name body ++ rest) :=
    (startsValue_memberText name body).append rest
  have digits : StartsValue (decimalDigits settings.jsonIndent) := by
    rw [written]
    exact Json.startsValue_number (.inl digit) rest
  rw [text_toList, members, List.intercalate_cons_cons, List.intercalate_cons_cons,
    List.intercalate_singleton]
  simp only [List.append_assoc, List.cons_append]
  rw [Diagnosis.scanValue_members isGap (starts _ _ _), scanMembers_text _ _ isGap (starts _ _ _),
    scanMembers_text _ _ isGap (starts _ _ _), scanMembers_memberText _ digits, close, written,
    List.cons_append, Diagnosis.scanValue_digit _ digit]

/-- The text is scanned up to the digits of the indent, and behind them it ends. -/
theorem scanText_text (settings : Settings) :
    scanText settings.text.toList =
      if settings.IsReadable then .ok []
      else .error (.numberOutOfRange,
        (decimalDigits settings.jsonIndent ++ ['\n', '\x7d']).drop (Json.digitLimit + 1)) := by
  have starts : Json.skipSpace settings.text.toList = settings.text.toList := by
    rw [text_toList]
    rfl
  have enough : ∃ fuel, 2 * settings.text.toList.length + 2 = fuel + 5 := by
    apply Nat.exists_eq_add_of_le'
    rw [text_toList]
    simp only [List.length_cons, List.length_append]
    omega
  have close (fuel : Nat) : scanBehind fuel ['\n', '\x7d'] = .ok [] := rfl
  obtain ⟨fuel, enough⟩ := enough
  rw [scanText, enough, starts, scanValue_text, Diagnosis.scanUnsigned_decimalDigits]
  by_cases readable : settings.IsReadable
  · rw [if_neg (Nat.not_lt.mpr readable), if_pos readable, Except.bind, close]
    rfl
  · rw [if_pos (Nat.not_le.mp readable), if_neg readable, Except.bind]

/-! ### Indents that are too long -/

/-- What is said about settings of which the indent is too long.  The reader gives up behind the last
digit that it allows, where the line may end. -/
def refusal (settings : Settings) : String :=
  if digitCount settings.jsonIndent = Json.digitLimit + 1 then
    "Invalid JSON: number out of range at line 5 column 0"
  else "Invalid JSON: number out of range at line 4 column 4319"

def firstLines (settings : Settings) : List Char :=
  let gap := (newline 2 1).toList
  '\x7b' :: (gap ++ (memberText "log_level" (plainQuoted settings.logLevel.label).toList ++ ',' ::
    (gap ++ (memberText "schema_dir" (plainQuoted settings.schemaDirectory).toList ++ [',']))))

def indentKey : List Char := "  \"json_indent\": ".toList

theorem text_eq_lines (settings : Settings) :
    settings.text.toList = settings.firstLines ++
      '\n' :: (indentKey ++ (decimalDigits settings.jsonIndent ++ ['\n', '\x7d'])) := by
  have gap : (newline 2 1).toList = ['\n', ' ', ' '] := rfl
  have close : (newline 2 0).toList ++ ['\x7d'] = ['\n', '\x7d'] := rfl
  have key : indentKey = ' ' :: ' ' :: memberText "json_indent" [] := rfl
  rw [text_toList, members, List.intercalate_cons_cons, List.intercalate_cons_cons,
    List.intercalate_singleton, firstLines, key, close, gap]
  simp only [memberText_append, List.append_assoc, List.cons_append, List.nil_append]

theorem digit_visible {c : Char} (digit : c.isDigit = true) : 32 ≤ c.toNat ∧ c.toNat < 128 := by
  have zero : '0'.toNat = 48 := rfl
  have nine : '9'.toNat = 57 := rfl
  rw [Char.isDigit_iff_toNat] at digit
  omega

section
variable {control : Char} (isControl : control.toNat < 32)

include isControl

theorem notMem_memberText (name content : String) :
    control ∉ memberText name (plainQuoted content).toList := by
  have visible : ∀ c ∈ memberText name (plainQuoted content).toList, 32 ≤ c.toNat := by
    rw [memberText, List.forall_mem_append, List.forall_mem_cons, List.forall_mem_cons]
    exact ⟨plainQuoted_visible name, by decide, by decide, plainQuoted_visible content⟩
  exact fun membership => Nat.not_lt.mpr (visible control membership) isControl

theorem notMem_digits {digits : List Char} (digit : ∀ c ∈ digits, c.isDigit = true) :
    control ∉ digits := by
  intro membership
  exact Nat.not_lt.mpr (digit_visible (digit control membership)).1 isControl

end

theorem count_firstLines (settings : Settings) : settings.firstLines.count '\n' = 2 := by
  have member (name content : String) :
      (memberText name (plainQuoted content).toList).count '\n' = 0 :=
    List.count_eq_zero_of_not_mem (notMem_memberText (by decide) name content)
  have gap : (newline 2 1).toList.count '\n' = 1 := by decide
  simp [firstLines, List.count_append, member, gap]

theorem byteLength_digits {digits : List Char} (digit : ∀ c ∈ digits, c.isDigit = true) :
    Diagnosis.byteLength digits = digits.length := by
  rw [Diagnosis.byteLength_eq]
  induction digits with
  | nil => rfl
  | cons c rest inductionHypothesis =>
      rw [List.forall_mem_cons] at digit
      have size : c.utf8Size = 1 := by
        rw [Char.utf8Size_eq_one_iff, UInt32.le_iff_toNat_le]
        exact Nat.le_of_lt_succ (digit_visible digit.1).2
      rw [List.map_cons, List.sum_cons, inductionHypothesis digit.2, size, List.length_cons,
        Nat.add_comm]

/-- Where the rest of the text begins when a number of digits of the indent has been read. -/
theorem lineAndColumn_text (settings : Settings) {count : Nat}
    (inside : count ≤ digitCount settings.jsonIndent) :
    Diagnosis.lineAndColumn settings.text.toList
        ((decimalDigits settings.jsonIndent ++ ['\n', '\x7d']).drop count) =
      if digitCount settings.jsonIndent = count then (5, 0) else (4, count + 18) := by
  have digit : ∀ c ∈ decimalDigits settings.jsonIndent, c.isDigit = true :=
    fun c => isDigit_of_mem_decimalDigits
  rw [digitCount] at inside ⊢
  rw [text_eq_lines]
  generalize decimalDigits settings.jsonIndent = digits at digit inside
  have read : ∀ c ∈ digits.take count, c.isDigit = true :=
    fun c membership => digit c (List.mem_of_mem_take membership)
  have noBreak : '\n' ∉ indentKey ++ digits.take count := by
    intro membership
    rcases List.mem_append.mp membership with inKey | inDigits
    · exact absurd inKey (by decide)
    · exact notMem_digits (by decide) read inDigits
  have split : digits ++ ['\n', '\x7d'] =
      digits.take count ++ (digits.drop count ++ ['\n', '\x7d']) := by
    rw [← List.append_assoc, List.take_append_drop]
  have width : Diagnosis.byteLength (indentKey ++ digits.take count) = count + 17 := by
    have key : Diagnosis.byteLength indentKey = 17 := by decide
    rw [Diagnosis.byteLength_append, byteLength_digits read, List.length_take_of_le inside, key,
      Nat.add_comm]
  rw [List.drop_append_of_le_length inside, split, ← List.append_assoc indentKey,
    Diagnosis.lineAndColumn_append noBreak, count_firstLines, width]
  cases later : digits.drop count with
  | nil =>
      have all : digits.length = count := Nat.le_antisymm (List.drop_eq_nil_iff.mp later) inside
      rw [if_pos all]
      rfl
  | cons c rest =>
      have more : digits.length ≠ count := by
        intro all
        rw [← all, List.drop_length] at later
        cases later
      have isDigit : c.isDigit = true :=
        digit c (List.mem_of_mem_drop (later ▸ List.mem_cons_self))
      rw [if_neg more, List.cons_append]
      split
      next ended => cases ended
      next broken =>
          cases broken
          cases isDigit
      · rfl

/-- The text is JSON unless the indent is too long. -/
theorem describe?_text (settings : Settings) :
    Diagnosis.describe? settings.text =
      if settings.IsReadable then none else some settings.refusal := by
  rw [Diagnosis.describe?, scanText_text]
  by_cases readable : settings.IsReadable
  · rw [if_pos readable, if_pos readable]
  · have inside : Json.digitLimit + 1 ≤ digitCount settings.jsonIndent := Nat.not_le.mp readable
    rw [if_neg readable, if_neg readable]
    simp only [lineAndColumn_text settings inside, refusal]
    split <;> rfl

/-- What the text gives: the settings again, or that their indent is too long. -/
theorem ofText_text (settings : Settings) :
    ofText settings.text =
      if settings.IsReadable then .ok settings else .error [⟨[], .notJson settings.refusal⟩] := by
  rw [ofText, describe?_text]
  by_cases readable : settings.IsReadable
  · simp only [if_pos readable, readable.read_text, ofValue_value]
  · simp only [if_neg readable]

theorem unifyLineEnds_text (settings : Settings) :
    unifyLineEnds settings.text.toList = settings.text.toList := by
  have member := notMem_memberText (show '\r'.toNat < 32 by decide)
  have digits : '\r' ∉ decimalDigits settings.jsonIndent :=
    notMem_digits (by decide) fun c => isDigit_of_mem_decimalDigits
  have gap : '\r' ∉ (newline 2 1).toList := by decide
  have key : '\r' ∉ indentKey := by decide
  have noReturn : '\r' ∉ settings.text.toList := by
    rw [text_eq_lines, firstLines]
    simp only [List.mem_append, List.mem_cons, not_or]
    exact ⟨⟨by decide, gap, member _ _, by decide, gap, member _ _, by decide⟩, by decide, key,
      digits, by decide⟩
  exact unifyLineEnds_eq_self fun c membership same => noReturn (same ▸ membership)

end Settings

end AnimationGrammar
