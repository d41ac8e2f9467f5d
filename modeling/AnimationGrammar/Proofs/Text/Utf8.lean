import AnimationGrammar.Proofs.Text.Quoted
import AnimationGrammar.Text.Utf8

/-!
Encoded texts decode.

A character takes between one and four bytes.  The byte that it starts with tells how many follow and in
which range the first of them lies, and the bytes give the digits of the code point in base sixty-four.
So every encoded text is decoded to itself.
-/

namespace AnimationGrammar.Utf8

/-! ### The bytes of a text -/

theorem toList_loop_eq (bytes : ByteArray) (position : Nat) (read : List UInt8) :
    ByteArray.toList.loop bytes position read =
      read.reverse ++ bytes.data.toList.drop position := by
  fun_induction ByteArray.toList.loop bytes position read with
  | case1 position read inside inductionHypothesis =>
      have bound : position < bytes.data.toList.length := by simpa using inside
      rw [inductionHypothesis, List.drop_eq_getElem_cons bound]
      simp [ByteArray.get!, inside]
  | case2 position read outside =>
      rw [List.drop_eq_nil_of_le (by simpa using Nat.le_of_not_lt outside), List.append_nil]

theorem encode_eq (text : String) :
    encode text = (text.toList.flatMap String.utf8EncodeChar).map UInt8.toNat := by
  have bytes : text.toUTF8 = (text.toList.flatMap String.utf8EncodeChar).toByteArray := by
    conv => lhs; rw [← String.ofList_toList (s := text)]
    rw [String.toUTF8_eq_toByteArray, String.toByteArray_ofList]
    rfl
  rw [encode, bytes, ByteArray.toList, toList_loop_eq, List.data_toByteArray]
  rfl

/-! ### Lead bytes -/

theorem leadByte?_two {bits : Nat} (low : 2 ≤ bits) (high : bits < 32) :
    leadByte? (bits + 192) = some ⟨bits, 1, 0x80, 0xBF⟩ := by
  rw [leadByte?, if_neg (by omega), if_neg (by omega), if_pos (by omega), Nat.add_sub_cancel]

/-- Of three bytes, the second is restricted where the form would be overlong or a surrogate. -/
theorem leadByte?_three {bits : Nat} (high : bits < 16) :
    ∃ first last, leadByte? (bits + 224) = some ⟨bits, 2, first, last⟩ ∧
      (bits = 0 ∧ first = 0xA0 ∨ first = 0x80) ∧ (bits = 13 ∧ last = 0x9F ∨ last = 0xBF) := by
  by_cases overlong : bits = 0
  · exact ⟨0xA0, 0xBF, by rw [overlong]; rfl, .inl ⟨overlong, rfl⟩, .inr rfl⟩
  · by_cases surrogate : bits = 13
    · exact ⟨0x80, 0x9F, by rw [surrogate]; rfl, .inr rfl, .inl ⟨surrogate, rfl⟩⟩
    · refine ⟨0x80, 0xBF, ?_, .inr rfl, .inr rfl⟩
      rw [leadByte?, if_neg (by omega), if_neg (by omega), if_neg (by omega), if_neg (by omega),
        if_neg (by omega), if_pos (by omega), Nat.add_sub_cancel]

/-- Of four bytes, the second is restricted where the form would be overlong or too large. -/
theorem leadByte?_four {bits : Nat} (high : bits < 5) :
    ∃ first last, leadByte? (bits + 240) = some ⟨bits, 3, first, last⟩ ∧
      (bits = 0 ∧ first = 0x90 ∨ first = 0x80) ∧ (bits = 4 ∧ last = 0x8F ∨ last = 0xBF) := by
  by_cases overlong : bits = 0
  · exact ⟨0x90, 0xBF, by rw [overlong]; rfl, .inl ⟨overlong, rfl⟩, .inr rfl⟩
  · by_cases tooLarge : bits = 4
    · exact ⟨0x80, 0x8F, by rw [tooLarge]; rfl, .inr rfl, .inl ⟨tooLarge, rfl⟩⟩
    · refine ⟨0x80, 0xBF, ?_, .inr rfl, .inr rfl⟩
      rw [leadByte?, if_neg (by omega), if_neg (by omega), if_neg (by omega), if_neg (by omega),
        if_neg (by omega), if_neg (by omega), if_neg (by omega), if_pos (by omega),
        Nat.add_sub_cancel]

/-! ### One character -/

theorem following_cons {count bits first last byte code : Nat} {rest : List Nat}
    (above : first ≤ byte) (below : byte ≤ last)
    (later : following count (bits * 64 + (byte - 0x80)) 0x80 0xBF rest = .ok code) :
    following (count + 1) bits first last (byte :: rest) = .ok code := by
  rw [following, if_pos (by simp [above, below]), later]

theorem decodeFrom_skip (bytes rest : List Nat) (position : Nat) :
    decodeFrom position bytes.length (bytes ++ rest) =
      decodeFrom (position + bytes.length) 0 rest := by
  induction bytes generalizing position with
  | nil => rfl
  | cons byte bytes inductionHypothesis =>
      rw [List.length_cons, List.cons_append, decodeFrom, inductionHypothesis, Nat.add_assoc,
        Nat.add_comm 1]

/-- The bytes of a character: one that starts it, and those that follow. -/
def Spells (c : Char) (byte : Nat) (bytes : List Nat) : Prop :=
  ∃ bits first last, leadByte? byte = some ⟨bits, bytes.length, first, last⟩ ∧
    ∀ rest, following bytes.length bits first last (bytes ++ rest) = .ok c.toNat

theorem Spells.decodeFrom_eq {c : Char} {byte : Nat} {bytes : List Nat}
    (spells : Spells c byte bytes) (position : Nat) (rest : List Nat) :
    decodeFrom position 0 (byte :: (bytes ++ rest)) =
      (decodeFrom (position + 1 + bytes.length) 0 rest).map (c :: ·) := by
  obtain ⟨bits, first, last, starts, follows⟩ := spells
  rw [decodeFrom, starts]
  simp only [follows, Char.ofNat_toNat, decodeFrom_skip]

theorem spells_one {c : Char} (small : c.toNat < 0x80) : Spells c c.toNat [] :=
  ⟨c.toNat, 0x80, 0xBF, if_pos small, fun _ => rfl⟩

theorem spells_two {c : Char} (large : 0x80 ≤ c.toNat) (small : c.toNat < 0x800) :
    Spells c (c.toNat / 64 % 32 + 192) [c.toNat % 64 + 128] := by
  refine ⟨c.toNat / 64 % 32, 0x80, 0xBF, leadByte?_two (by omega) (by omega), fun rest => ?_⟩
  apply following_cons (by omega) (by omega)
  exact congrArg Except.ok (by omega)

theorem spells_three {c : Char} (large : 0x800 ≤ c.toNat) (small : c.toNat < 0x10000) :
    Spells c (c.toNat / 4096 % 16 + 224) [c.toNat / 64 % 64 + 128, c.toNat % 64 + 128] := by
  obtain ⟨noSurrogate, -⟩ := Json.char_noSurrogate c
  obtain ⟨first, last, starts, overlong, surrogate⟩ :=
    leadByte?_three (Nat.mod_lt (c.toNat / 4096) (by decide))
  refine ⟨c.toNat / 4096 % 16, first, last, starts, fun rest => ?_⟩
  apply following_cons
  · rcases overlong with ⟨none, rfl⟩ | rfl <;> omega
  · rcases surrogate with ⟨thirteen, rfl⟩ | rfl <;> omega
  · apply following_cons (by omega) (by omega)
    exact congrArg Except.ok (by omega)

theorem spells_four {c : Char} (large : 0x10000 ≤ c.toNat) :
    Spells c (c.toNat / 262144 % 8 + 240)
      [c.toNat / 4096 % 64 + 128, c.toNat / 64 % 64 + 128, c.toNat % 64 + 128] := by
  obtain ⟨-, bound⟩ := Json.char_noSurrogate c
  have small : c.toNat / 262144 % 8 < 5 := by omega
  obtain ⟨first, last, starts, overlong, tooLarge⟩ := leadByte?_four small
  refine ⟨c.toNat / 262144 % 8, first, last, starts, fun rest => ?_⟩
  apply following_cons
  · rcases overlong with ⟨none, rfl⟩ | rfl <;> omega
  · rcases tooLarge with ⟨four, rfl⟩ | rfl <;> omega
  · apply following_cons (by omega) (by omega)
    apply following_cons (by omega) (by omega)
    exact congrArg Except.ok (by omega)

theorem toNat_byte {n : Nat} (small : n < 256) : (UInt8.ofNat n).toNat = n := by
  rw [UInt8.toNat_ofNat', Nat.mod_eq_of_lt small]

theorem spells_encoded (c : Char) :
    ∃ byte bytes, (String.utf8EncodeChar c).map UInt8.toNat = byte :: bytes ∧
      Spells c byte bytes := by
  have code : c.val.toNat = c.toNat := rfl
  have valid := (Json.char_noSurrogate c).2
  rw [String.utf8EncodeChar, code]
  split
  next one =>
      refine ⟨_, [], ?_, spells_one (by omega)⟩
      simp (disch := omega) only [List.map_cons, List.map_nil, toNat_byte]
  next large =>
      split
      next two =>
          refine ⟨_, _, ?_, spells_two (by omega) (by omega)⟩
          simp (disch := omega) only [List.map_cons, List.map_nil, toNat_byte]
      next larger =>
          split
          next three =>
              refine ⟨_, _, ?_, spells_three (by omega) (by omega)⟩
              simp (disch := omega) only [List.map_cons, List.map_nil, toNat_byte]
          next four =>
              refine ⟨_, _, ?_, spells_four (by omega)⟩
              simp (disch := omega) only [List.map_cons, List.map_nil, toNat_byte]

/-! ### Whole texts -/

theorem decodeFrom_encoded (text : List Char) (position : Nat) :
    decodeFrom position 0 ((text.flatMap String.utf8EncodeChar).map UInt8.toNat) = .ok text := by
  induction text generalizing position with
  | nil => rfl
  | cons c text inductionHypothesis =>
      obtain ⟨byte, bytes, encoded, spells⟩ := spells_encoded c
      rw [List.flatMap_cons, List.map_append, encoded, List.cons_append, spells.decodeFrom_eq,
        inductionHypothesis]
      rfl

/-- What a text is encoded to decodes to the text. -/
theorem decode_encode (text : String) : decode (encode text) = .ok text := by
  rw [decode, encode_eq, decodeFrom_encoded, Except.map, String.ofList_toList]

end AnimationGrammar.Utf8
