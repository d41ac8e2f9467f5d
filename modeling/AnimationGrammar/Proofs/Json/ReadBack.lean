import AnimationGrammar.Json.Writer
import AnimationGrammar.Proofs.Number.Reading
import AnimationGrammar.Proofs.Text.Quoted
import AnimationGrammar.Proofs.Value.Json
import AnimationGrammar.Proofs.Value.Related

/-!
Values that are written as JSON read back.

Every value is written so that it reads back whatever follows it, as long as that cannot be taken for a
part of it.  Lists and objects read their parts back one after the other, and the line breaks between the
parts are skipped.
-/

namespace AnimationGrammar.Json

/-- Values that a JSON text can hold as they are: all keys are texts, and no key is given twice. -/
inductive Readable : Value → Prop
  | atom (a : Atom) : Readable (.atom a)
  | list {items} : (∀ item ∈ items, Readable item) → Readable (.list items)
  | object {entries} : (∀ entry ∈ entries, ∃ name, entry.1 = .text name) →
      (entries.map Prod.fst).Nodup → (∀ entry ∈ entries, Readable entry.2) →
      Readable (.mapping entries)

def noStarts : List Char := [' ', '\t', '\n', '\r', ']', '\x7d', '\uFEFF']

def StartsValue (text : List Char) : Prop := ∃ c rest, text = c :: rest ∧ c ∉ noStarts

def EndsValue (rest : List Char) : Prop := ∀ c ∈ rest.head?, c = ',' ∨ c = '\n'

/-- Whether a text reads back as a value, whatever follows it. -/
structure ReadsBack (value : Value) (text : List Char) : Prop where
  starts : StartsValue text
  reads : ∀ fuel rest, text.length ≤ fuel → EndsValue rest →
    readValue fuel (text ++ rest) = .ok (value, rest)

theorem EndsValue.endsNumber {rest : List Char} (ends : EndsValue rest) : EndsNumber rest := by
  intro c head
  rcases ends c head with rfl | rfl <;> decide

/-! ### Atoms -/

/-- A number starts with a digit, perhaps after a sign, and so it is none of the words. -/
theorem readWord?_of_number {text rest : List Char} {found : Except Nat Numeral}
    (read : readNumber? text = some (found, rest)) : readWord? text = none := by
  have noWord {c : Char} {body : List Char} (digit : c.isDigit = true) :
      readWord? (c :: body) = none ∧ readWord? ('-' :: c :: body) = none := by
    have noDigits : (['n', 't', 'f', 'N', 'I', '-'].all fun letter => !letter.isDigit) = true := rfl
    have letters : ∀ letter ∈ ['n', 't', 'f', 'N', 'I', '-'], letter ≠ c := by
      rintro letter membership rfl
      simpa [digit] using List.all_eq_true.mp noDigits letter membership
    simp only [List.forall_mem_cons, List.not_mem_nil, false_imp_iff, implies_true, and_true]
      at letters
    simp [readWord?, words, dropWord?, letters]
  rw [readNumber?.eq_def] at read
  split at read
  · obtain ⟨c, body, rfl, digit⟩ := readUnsigned_head read
    exact (noWord digit).2
  · obtain ⟨c, body, rfl, digit⟩ := readUnsigned_head read
    exact (noWord digit).1

theorem readValue_number {fuel : Nat} {text rest : List Char} {n : Numeral}
    (read : readNumber? text = some (.ok n, rest)) :
    readValue (fuel + 1) text = .ok (.number n, rest) := by
  obtain ⟨c, body, rfl, start⟩ := readNumber?_head read
  have noBracket : c ≠ '"' ∧ c ≠ '[' ∧ c ≠ '\x7b' := by
    refine ⟨?_, ?_, ?_⟩ <;> rintro rfl <;> simp at start
  rw [readValue, readWord?_of_number read, read]
  · exact List.cons_ne_nil c body
  · exact fun later same => noBracket.1 (List.cons.inj same).1
  · exact fun later same => noBracket.2.1 (List.cons.inj same).1
  · exact fun later same => noBracket.2.2 (List.cons.inj same).1

theorem startsValue_number {c : Char} (start : c.isDigit = true ∨ c = '-') (rest : List Char) :
    StartsValue (c :: rest) := by
  refine ⟨c, rest, rfl, fun noStart => ?_⟩
  have noNumbers : (noStarts.all fun c => !c.isDigit && c != '-') = true := rfl
  have noNumber := List.all_eq_true.mp noNumbers c noStart
  rcases start with digit | rfl
  · simp [digit] at noNumber
  · simp at noNumber

theorem ReadsBack.number {text : List Char} {n : Numeral}
    (read : readNumber? text = some (.ok n, [])) : ReadsBack (.number n) text := by
  obtain ⟨c, body, rfl, start⟩ := readNumber?_head read
  constructor
  case starts => exact startsValue_number start body
  case reads =>
    intro fuel rest enough ends
    obtain ⟨fuel, rfl⟩ := Nat.exists_eq_add_one.mpr (Nat.zero_lt_of_lt enough)
    exact readValue_number (readNumber?_append ends.endsNumber read)

theorem ReadsBack.word {word : List Char} {value : Value} (known : (word, value) ∈ words) :
    ReadsBack value word := by
  constructor
  case starts =>
    have starts : (words.all fun word => word.1.head?.any (· ∉ noStarts)) = true := rfl
    have start := List.all_eq_true.mp starts _ known
    cases word with
    | nil => simp at start
    | cons first rest => exact ⟨first, rest, rfl, by simpa using start⟩
  case reads =>
    intro fuel rest enough _
    simp only [words, List.mem_cons, Prod.mk.injEq, List.not_mem_nil, or_false] at known
    rcases known with ⟨rfl, rfl⟩ | ⟨rfl, rfl⟩ | ⟨rfl, rfl⟩ | ⟨rfl, rfl⟩ | ⟨rfl, rfl⟩ | ⟨rfl, rfl⟩ <;>
      obtain ⟨fuel, rfl⟩ := Nat.exists_eq_add_one.mpr (Nat.zero_lt_of_lt enough) <;> rfl

theorem ReadsBack.quoted {escape : Char → List Char}
    (reads : ∀ start c {rest}, rest ≠ [] →
      readString start (escape c ++ rest) = prepend c (readString start rest)) (content : String) :
    ReadsBack (.text content) ('"' :: (content.toList.flatMap escape ++ ['"'])) := by
  constructor
  case starts => exact ⟨'"', _, rfl, by decide⟩
  case reads =>
    intro fuel rest enough _
    obtain ⟨fuel, rfl⟩ := Nat.exists_eq_add_one.mpr (Nat.zero_lt_of_lt enough)
    rw [List.cons_append, List.append_assoc, List.singleton_append, readValue,
      readString_flatMap (reads _)]
    simp [Except.map]

theorem ReadsBack.text (content : String) :
    ReadsBack (.text content) (asciiQuoted content).toList := by
  rw [asciiQuoted_toList]
  exact .quoted (fun _ => readString_asciiEscaped) content

theorem ReadsBack.plainText (content : String) :
    ReadsBack (.text content) (plainQuoted content).toList := by
  rw [plainQuoted_toList]
  exact .quoted (fun _ => readString_plainEscaped) content

theorem ReadsBack.atom {a : Atom} {text : String} (written : atomText a = .ok text) :
    ReadsBack (.atom a) text.toList := by
  cases a with
  | null =>
      cases written
      exact .word (by simp [words])
  | boolean value =>
      cases written
      cases value <;> exact .word (by simp [words])
  | number n =>
      cases n with
      | integer value =>
          simp only [atomText] at written
          split at written
          · simp at written
          next short =>
              cases written
              exact .number (readNumber?_integer (by simpa using short))
      | double x =>
          cases written
          rcases x with ⟨negative, magnitude⟩ | negative | _
          · exact .number (magnitude.readNumber?_doubleText negative)
          · cases negative <;>
              exact .word (by simp [words, NumberLayout.doubleText, doubleLayout, canonicalLayout])
          · exact .word (by simp [words, NumberLayout.doubleText, doubleLayout, canonicalLayout])
  | text content =>
      cases written
      exact .text content
  | time value => simp [atomText] at written
  | bytes content => simp [atomText] at written

/-! ### Lists and objects -/

def IsGap (gap : List Char) : Prop := gap.head? = some '\n' ∧ ∀ c ∈ gap, isSpace c = true

theorem newline_isGap (indent level : Nat) : IsGap (newline indent level).toList := by
  rw [newline, String.toList_ofList]
  refine ⟨rfl, fun c membership => ?_⟩
  rcases List.mem_cons.mp membership with rfl | spaces
  · rfl
  · rw [List.eq_of_mem_replicate spaces]
    rfl

theorem IsGap.endsValue {gap : List Char} (isGap : IsGap gap) (rest : List Char) :
    EndsValue (gap ++ rest) := by
  intro c head
  rw [List.head?_append, isGap.1] at head
  exact .inr (Option.some.inj head).symm

theorem skipSpace_of_starts {text : List Char} (starts : StartsValue text) :
    skipSpace text = text := by
  obtain ⟨c, rest, rfl, start⟩ := starts
  have spaces : ∀ c, isSpace c = true → c ∈ noStarts := by
    intro c space
    simp only [isSpace, Bool.or_eq_true, beq_iff_eq] at space
    rcases space with ((rfl | rfl) | rfl) | rfl <;> decide
  rw [skipSpace, List.dropWhile_cons_of_neg fun space => start (spaces c space)]

theorem IsGap.skipSpace_append {gap text : List Char} (isGap : IsGap gap) :
    skipSpace (gap ++ text) = skipSpace text := by
  rw [skipSpace, List.dropWhile_append_of_pos isGap.2, skipSpace]

theorem skipSpace_comma (rest : List Char) : skipSpace (',' :: rest) = ',' :: rest := rfl

theorem StartsValue.append {text : List Char} (starts : StartsValue text) (rest : List Char) :
    StartsValue (text ++ rest) := by
  obtain ⟨c, body, rfl, start⟩ := starts
  exact ⟨c, body ++ rest, rfl, start⟩

theorem StartsValue.intercalate {first : List Char} (starts : StartsValue first)
    (separator : List Char) (others : List (List Char)) :
    StartsValue (separator.intercalate (first :: others)) := by
  cases others with
  | nil => rwa [List.intercalate_singleton]
  | cons second others =>
      rw [List.intercalate_cons_cons, List.append_assoc]
      exact starts.append _

def ReadsMember (entry : Atom × Value) (text : List Char) : Prop :=
  ∃ name body, entry.1 = .text name ∧ text = (asciiQuoted name).toList ++ ':' :: ' ' :: body ∧
    ReadsBack entry.2 body

theorem ReadsMember.starts {entry : Atom × Value} {text : List Char} (reads : ReadsMember entry text) :
    StartsValue text := by
  obtain ⟨name, body, _, rfl, _⟩ := reads
  exact (ReadsBack.text name).starts.append _

theorem isSameKey_text {key : Atom} {name : String} :
    key.isSameKey (.text name) = true ↔ key = .text name := by
  cases key <;> simp [Atom.isSameKey, Atom.numeral?]

theorem putEntry_fresh {name : String} {value : Value} {entries : List (Atom × Value)}
    (fresh : .text name ∉ entries.map Prod.fst) :
    putEntry (.text name) value entries = entries ++ [(.text name, value)] := by
  induction entries with
  | nil => rfl
  | cons entry rest inductionHypothesis =>
      rcases entry with ⟨key, old⟩
      simp only [List.map_cons, List.mem_cons, not_or] at fresh
      have other : key.isSameKey (.text name) = false := by
        rw [Bool.eq_false_iff, ne_eq, isSameKey_text]
        exact fun same => fresh.1 same.symm
      rw [putEntry, if_neg (by simp [other]), inductionHypothesis fresh.2, List.cons_append]

/-- The members of an object from what stands behind one of them: the end, or the next member. -/
def readMembersBehind (fuel : Nat) (members : List (Atom × Value)) (text : List Char) :
    Reading (List (Atom × Value)) :=
  match skipSpace text with
  | '\x7d' :: rest => .ok (members, rest)
  | ',' :: rest => readMembers fuel members (skipSpace rest)
  | rest => failAt .commaExpected rest

theorem ReadsMember.readMembers_append {entry : Atom × Value} {text : List Char}
    (reads : ReadsMember entry text) {before : List (Atom × Value)}
    (fresh : entry.1 ∉ before.map Prod.fst) {fuel : Nat} (fits : text.length ≤ fuel + 1)
    {tail : List Char} (ends : EndsValue tail) :
    readMembers (fuel + 1) before (text ++ tail) =
      readMembersBehind fuel (before ++ [entry]) tail := by
  rcases entry with ⟨key, value⟩
  obtain ⟨name, body, named, rfl, reads⟩ := reads
  obtain rfl : key = .text name := named
  have colon (rest : List Char) : skipSpace (':' :: rest) = ':' :: rest := rfl
  have afterColon : skipSpace (' ' :: (body ++ tail)) = body ++ tail :=
    skipSpace_of_starts (reads.starts.append tail)
  have bodyFits : body.length ≤ fuel := by
    simp only [List.length_append, List.length_cons] at fits
    omega
  rw [asciiQuoted_toList, List.cons_append, List.cons_append, List.append_assoc,
    List.append_assoc, List.singleton_append, readMembers, readString_escaped]
  simp only [List.cons_append, colon, afterColon, reads.reads fuel tail bodyFits ends,
    String.ofList_toList, putEntry_fresh fresh]
  rfl

section
variable {gap close : List Char} (isGap : IsGap gap) (closeIsGap : IsGap close)

include isGap closeIsGap

/-- Items read back one after the other. -/
theorem readItems_written {items : List Value} {texts : List (List Char)}
    (each : List.Forall₂ ReadsBack items texts) (given : items ≠ []) :
    ∀ fuel rest, ((',' :: gap).intercalate texts).length < fuel →
      readItems fuel ((',' :: gap).intercalate texts ++ (close ++ ']' :: rest)) =
        .ok (items, rest) := by
  induction each with
  | nil => exact absurd rfl given
  | @cons item text items texts first later inductionHypothesis =>
      intro fuel rest enough
      obtain ⟨fuel, rfl⟩ := Nat.exists_eq_add_one.mpr (Nat.zero_lt_of_lt enough)
      cases later with
      | nil =>
          rw [List.intercalate_singleton] at enough ⊢
          rw [readItems, first.reads fuel _ (by omega) (closeIsGap.endsValue _)]
          simp only [closeIsGap.skipSpace_append]
          rfl
      | @cons second other items texts next later =>
          rw [List.intercalate_cons_cons] at enough ⊢
          simp only [List.length_append, List.length_cons] at enough
          have read := inductionHypothesis (List.cons_ne_nil _ _) fuel rest (by omega)
          have startsNext := next.starts.intercalate (',' :: gap) texts
          rw [List.append_assoc, List.append_assoc, List.cons_append, readItems,
            first.reads fuel _ (by omega) (by simp [EndsValue])]
          simp only [skipSpace_comma, isGap.skipSpace_append,
            skipSpace_of_starts (startsNext.append _), read]
          rfl

/-- Members with new keys read back one after the other. -/
theorem readMembers_written {entries : List (Atom × Value)} {texts : List (List Char)}
    (each : List.Forall₂ ReadsMember entries texts) (given : entries ≠ []) :
    ∀ fuel before rest, ((',' :: gap).intercalate texts).length < fuel →
      ((before ++ entries).map Prod.fst).Nodup →
      readMembers fuel before ((',' :: gap).intercalate texts ++ (close ++ '\x7d' :: rest)) =
        .ok (before ++ entries, rest) := by
  induction each with
  | nil => exact absurd rfl given
  | @cons entry text entries texts first later inductionHypothesis =>
      intro fuel before rest enough keysDiffer
      obtain ⟨fuel, rfl⟩ := Nat.exists_eq_add_one.mpr (Nat.zero_lt_of_lt enough)
      have fresh : entry.1 ∉ before.map Prod.fst := by
        rw [List.map_append, List.map_cons] at keysDiffer
        exact fun inBefore =>
          List.disjoint_of_nodup_append keysDiffer inBefore List.mem_cons_self
      cases later with
      | nil =>
          rw [List.intercalate_singleton] at enough ⊢
          rw [first.readMembers_append fresh (by omega) (closeIsGap.endsValue _),
            readMembersBehind, closeIsGap.skipSpace_append]
          rfl
      | @cons second other entries texts next later =>
          rw [List.intercalate_cons_cons] at enough ⊢
          simp only [List.length_append, List.length_cons] at enough
          have rearranged : (before ++ [entry]) ++ second :: entries =
              before ++ entry :: second :: entries := by simp
          have read := inductionHypothesis (List.cons_ne_nil _ _) fuel (before ++ [entry]) rest
            (by omega) (by rwa [rearranged])
          have startsNext := next.starts.intercalate (',' :: gap) texts
          rw [List.append_assoc, List.append_assoc, List.cons_append,
            first.readMembers_append fresh (by omega) (by simp [EndsValue]), readMembersBehind]
          simp only [skipSpace_comma, isGap.skipSpace_append,
            skipSpace_of_starts (startsNext.append _), read, rearranged]

end

/-- Parts in brackets have space before, between and after them. -/
theorem bracketed_toList {opening closing : String} {first last : Char}
    (opens : opening.toList = [first]) (closes : closing.toList = [last]) (indent level : Nat)
    {parts : List String} (given : parts ≠ []) :
    let gap := (newline indent (level + 1)).toList
    (bracketed opening closing indent level parts).toList =
      first :: (gap ++ ((',' :: gap).intercalate (parts.map String.toList) ++
        ((newline indent level).toList ++ [last]))) := by
  intro gap
  have comma : ",".toList = [','] := rfl
  rw [bracketed]
  · simp only [String.toList_append, String.toList_intercalate, comma, opens, closes,
      List.singleton_append, List.append_assoc, gap]
    rfl
  · exact given

theorem readValue_items {gap text : List Char} (isGap : IsGap gap) (starts : StartsValue text)
    (fuel : Nat) :
    readValue (fuel + 1) ('[' :: (gap ++ text)) =
      (readItems fuel text).map fun (items, rest) => (.list items, rest) := by
  rw [readValue, isGap.skipSpace_append, skipSpace_of_starts starts]
  obtain ⟨c, body, rfl, start⟩ := starts
  split
  next closed =>
      cases closed
      exact absurd (by decide) start
  · rfl

theorem readValue_members {gap text : List Char} (isGap : IsGap gap) (starts : StartsValue text)
    (fuel : Nat) :
    readValue (fuel + 1) ('\x7b' :: (gap ++ text)) =
      (readMembers fuel [] text).map fun (entries, rest) => (.mapping entries, rest) := by
  rw [readValue, isGap.skipSpace_append, skipSpace_of_starts starts]
  obtain ⟨c, body, rfl, start⟩ := starts
  split
  next closed =>
      cases closed
      exact absurd (by decide) start
  · rfl

theorem ReadsBack.of_brackets {value : Value} {opening closing : Char} {inner : List Char}
    (start : opening ∉ noStarts) (gap close : List Char)
    (reads : ∀ fuel rest, inner.length < fuel →
      readValue (fuel + 1) (opening :: (gap ++ (inner ++ (close ++ closing :: rest)))) =
        .ok (value, rest)) :
    ReadsBack value (opening :: (gap ++ (inner ++ (close ++ [closing])))) := by
  refine ⟨⟨opening, _, rfl, start⟩, fun fuel rest enough _ => ?_⟩
  obtain ⟨fuel, rfl⟩ := Nat.exists_eq_add_one.mpr (Nat.zero_lt_of_lt enough)
  simp only [List.length_append, List.length_cons, List.length_nil] at enough
  have read := reads fuel rest (by omega)
  simpa only [List.append_assoc, List.cons_append, List.nil_append] using read

theorem ReadsBack.list {items : List Value} {texts : List String} (indent level : Nat)
    (each : List.Forall₂ (fun item text => ReadsBack item text.toList) items texts) :
    ReadsBack (.list items) (bracketed "[" "]" indent level texts).toList := by
  cases each with
  | nil =>
      have empty : (bracketed "[" "]" indent level []).toList = ['[', ']'] := by simp [bracketed]
      have reads : ReadsBack (.list []) ('[' :: ([] ++ ([] ++ ([] ++ [']'])))) :=
        .of_brackets (by decide) [] [] fun _ _ _ => rfl
      rwa [empty]
  | @cons item text items texts first later =>
      have isGap := newline_isGap indent (level + 1)
      have each : List.Forall₂ ReadsBack (item :: items) (text.toList :: texts.map String.toList) :=
        .cons first (List.forall₂_map_right_iff.mpr later)
      have starts := first.starts.intercalate (',' :: (newline indent (level + 1)).toList)
        (texts.map String.toList)
      rw [bracketed_toList (show "[".toList = ['['] from rfl) (show "]".toList = [']'] from rfl) indent
        level (List.cons_ne_nil text texts), List.map_cons]
      refine .of_brackets (by decide) _ _ fun fuel rest enough => ?_
      rw [readValue_items isGap (starts.append _), readItems_written isGap
        (newline_isGap indent level) each (List.cons_ne_nil _ _) fuel rest enough]
      rfl

theorem ReadsBack.object {entries : List (Atom × Value)} {texts : List String} (indent level : Nat)
    (keysDiffer : (entries.map Prod.fst).Nodup)
    (each : List.Forall₂ (fun entry text => ReadsMember entry text.toList) entries texts) :
    ReadsBack (.mapping entries) (bracketed "\x7b" "\x7d" indent level texts).toList := by
  cases each with
  | nil =>
      have empty : (bracketed "\x7b" "\x7d" indent level []).toList = ['\x7b', '\x7d'] := by
        simp [bracketed]
      have reads : ReadsBack (.mapping []) ('\x7b' :: ([] ++ ([] ++ ([] ++ ['\x7d'])))) :=
        .of_brackets (by decide) [] [] fun _ _ _ => rfl
      rwa [empty]
  | @cons entry text entries texts first later =>
      have isGap := newline_isGap indent (level + 1)
      have each : List.Forall₂ ReadsMember (entry :: entries)
          (text.toList :: texts.map String.toList) :=
        .cons first (List.forall₂_map_right_iff.mpr later)
      have starts := first.starts.intercalate (',' :: (newline indent (level + 1)).toList)
        (texts.map String.toList)
      rw [bracketed_toList (show "\x7b".toList = ['\x7b'] from rfl)
        (show "\x7d".toList = ['\x7d'] from rfl) indent level (List.cons_ne_nil text texts),
        List.map_cons]
      refine .of_brackets (by decide) _ _ fun fuel rest enough => ?_
      rw [readValue_members isGap (starts.append _), readMembers_written isGap
        (newline_isGap indent level) each (List.cons_ne_nil _ _) fuel [] rest enough keysDiffer]
      rfl

/-! ### Writing -/

theorem writeItems_eq_ok_iff {indent level : Nat} {items : List Value} {texts : List String} :
    writeItems indent level items = .ok texts ↔
      List.Forall₂ (fun item text => write indent level item = .ok text) items texts := by
  induction items generalizing texts with
  | nil => simp [writeItems, eq_comm]
  | cons item rest inductionHypothesis =>
      simp only [writeItems, bind_eq_ok_iff, inductionHypothesis, List.forall₂_cons_left_iff]
      constructor
      · rintro ⟨text, first, texts, later, ⟨⟩⟩
        exact ⟨text, texts, first, later, rfl⟩
      · rintro ⟨text, texts, first, later, rfl⟩
        exact ⟨text, first, texts, later, rfl⟩

def WritesMember (indent level : Nat) (entry : Atom × Value) (text : String) : Prop :=
  ∃ name body, keyText entry.1 = .ok name ∧ write indent level entry.2 = .ok body ∧
    text = name ++ ": " ++ body

theorem writeEntries_eq_ok_iff {indent level : Nat} {entries : List (Atom × Value)}
    {texts : List String} :
    writeEntries indent level entries = .ok texts ↔
      List.Forall₂ (WritesMember indent level) entries texts := by
  induction entries generalizing texts with
  | nil => simp [writeEntries, eq_comm]
  | cons entry rest inductionHypothesis =>
      rcases entry with ⟨key, value⟩
      simp only [writeEntries, bind_eq_ok_iff, inductionHypothesis, List.forall₂_cons_left_iff]
      constructor
      · rintro ⟨name, named, text, first, texts, later, ⟨⟩⟩
        exact ⟨_, texts, ⟨name, text, named, first, rfl⟩, later, rfl⟩
      · rintro ⟨_, texts, ⟨name, text, named, first, rfl⟩, later, rfl⟩
        exact ⟨name, named, text, first, texts, later, rfl⟩

/-- What is written of a value reads back as that value. -/
theorem Readable.readsBack {value : Value} (readable : Readable value) :
    ∀ {indent level text}, write indent level value = .ok text → ReadsBack value text.toList := by
  induction readable with
  | atom a => exact fun written => .atom written
  | list _ inductionHypothesis =>
      intro indent level text written
      rw [write, map_eq_ok_iff] at written
      obtain ⟨texts, written, rfl⟩ := written
      rw [writeItems_eq_ok_iff] at written
      refine .list indent level (forall₂_of_mem (fun item membership text written => ?_) written)
      exact inductionHypothesis item membership written
  | object keys keysDiffer _ inductionHypothesis =>
      intro indent level text written
      rw [write, map_eq_ok_iff] at written
      obtain ⟨texts, written, rfl⟩ := written
      rw [writeEntries_eq_ok_iff] at written
      refine .object indent level keysDiffer
        (forall₂_of_mem (fun entry membership text written => ?_) written)
      obtain ⟨name, body, named, written, rfl⟩ := written
      obtain ⟨keyName, isText⟩ := keys entry membership
      rw [isText, keyText, Except.ok.injEq] at named
      refine ⟨keyName, body.toList, isText, ?_, inductionHypothesis entry membership written⟩
      have colon : ": ".toList = [':', ' '] := rfl
      rw [← named, String.toList_append, String.toList_append, colon, List.append_assoc]
      rfl

theorem ReadsBack.read {value : Value} {text : String} (readsBack : ReadsBack value text.toList) :
    read text = .ok value := by
  obtain ⟨starts, reads⟩ := readsBack
  have whole := reads (2 * text.toList.length + 2) [] (by omega) (by simp [EndsValue])
  rw [List.append_nil] at whole
  have noMark : ∀ rest, text.toList ≠ '\uFEFF' :: rest := by
    obtain ⟨c, body, same, start⟩ := starts
    rintro rest marked
    rw [marked, List.cons.injEq] at same
    exact start (same.1 ▸ by decide)
  have chars : readChars text.toList = .ok value := by
    rw [readChars]
    · rw [skipSpace_of_starts starts, whole]
      rfl
    · exact noMark
  rw [Json.read, chars]

theorem Readable.read_write {value : Value} (readable : Readable value) {indent : Nat} {text : String}
    (written : write indent 0 value = .ok text) : read text = .ok value :=
  (readable.readsBack written).read

/-! ### What can be written -/

/-- Whether an atom has a JSON text: it is no time, no bytes and no integer that is too long. -/
def isWritable : Atom → Bool
  | .time _ => false
  | .bytes _ => false
  | a => !a.isLongNumber

theorem isLongNumber_of_isWritable {a : Atom} (writable : isWritable a = true) :
    a.isLongNumber = false := by
  cases a with
  | time value => rfl
  | bytes content => rfl
  | _ => simpa [isWritable] using writable

def Writes (indent level : Nat) (value : Value) : Prop := ∃ text, write indent level value = .ok text

section
variable {indent level : Nat}

theorem writes_atom_iff {a : Atom} : Writes indent level (.atom a) ↔ isWritable a = true := by
  rw [Writes, write]
  cases a with
  | number n =>
      cases n with
      | integer value =>
          cases long : (Atom.number (.integer value)).isLongNumber <;>
            simp [atomText, isWritable, long]
      | double x => simp [atomText, isWritable, Atom.isLongNumber]
  | _ => simp [atomText, isWritable, Atom.isLongNumber]

theorem writes_list_iff {items : List Value} :
    Writes indent level (.list items) ↔ ∀ item ∈ items, Writes indent (level + 1) item := by
  rw [Writes, write]
  simp only [map_eq_ok_iff, writeItems_eq_ok_iff]
  rw [exists_comm]
  simp only [exists_and_left, exists_eq', and_true, forall₂_exists_iff]
  rfl

theorem writes_object_iff {members : List (String × Value)} :
    Writes indent level (.object members) ↔
      ∀ member ∈ members, Writes indent (level + 1) member.2 := by
  have writesMember {name : String} {value : Value} :
      (∃ text, WritesMember indent (level + 1) (.text name, value) text) ↔
        Writes indent (level + 1) value := by
    constructor
    · rintro ⟨_, _, body, _, written, _⟩
      exact ⟨body, written⟩
    · rintro ⟨body, written⟩
      exact ⟨_, _, body, rfl, written, rfl⟩
  rw [Writes, Value.object, write]
  simp only [map_eq_ok_iff, writeEntries_eq_ok_iff]
  rw [exists_comm]
  simp only [exists_and_left, exists_eq', and_true, forall₂_exists_iff, List.forall_mem_map,
    writesMember]

end

theorem Readable.of_object {members : List (String × Value)}
    (namesDiffer : (members.map Prod.fst).Nodup) (each : ∀ member ∈ members, Readable member.2) :
    Readable (.object members) := by
  refine .object ?_ ?_ ?_
  · rw [List.forall_mem_map]
    exact fun member _ => ⟨member.1, rfl⟩
  · have keysDiffer : ((members.map Prod.fst).map Atom.text).Nodup :=
      namesDiffer.map fun _ _ => Atom.text.inj
    rw [List.map_map] at keysDiffer ⊢
    exact keysDiffer
  · rw [List.forall_mem_map]
    exact each

end AnimationGrammar.Json
