import AnimationGrammar.Number.Layout
import AnimationGrammar.Text.Quoted

/-!
Decoding of UTF-8.

`leadByte?` says of every byte that may start a character how many bytes follow it and in which range
the first of them lies; that range is what excludes overlong forms, surrogates and code points beyond
the last one.
-/

namespace AnimationGrammar.Utf8

/-- What a byte that starts a character asks of the bytes after it. -/
structure Lead where
  /-- The bits that the byte itself gives. -/
  bits : Nat
  following : Nat
  low : Nat := 0x80
  high : Nat := 0xBF

/-- A byte that starts a character. -/
def leadByte? (byte : Nat) : Option Lead :=
  if byte < 0x80 then some { bits := byte, following := 0 }
  else if byte < 0xC2 then none
  else if byte < 0xE0 then some { bits := byte - 0xC0, following := 1 }
  else if byte = 0xE0 then some { bits := 0, following := 2, low := 0xA0 }
  else if byte = 0xED then some { bits := 0xD, following := 2, high := 0x9F }
  else if byte < 0xF0 then some { bits := byte - 0xE0, following := 2 }
  else if byte = 0xF0 then some { bits := 0, following := 3, low := 0x90 }
  else if byte < 0xF4 then some { bits := byte - 0xF0, following := 3 }
  else if byte = 0xF4 then some { bits := 4, following := 3, high := 0x8F }
  else none

/-- What is wrong with bytes that are no text. -/
inductive Problem
  | invalidStart
  | invalidContinuation
  | unexpectedEnd
  deriving DecidableEq

/-- Bytes that could not be decoded: from where, how many of them, the first of them, and why. -/
structure DecodeError where
  position : Nat
  length : Nat
  byte : Nat
  problem : Problem
  deriving DecidableEq

/-- The bytes after a lead byte: the code point, or how many of them were in order and why not more. -/
def following : Nat → Nat → Nat → Nat → List Nat → Except (Nat × Problem) Nat
  | 0, bits, _, _, _ => .ok bits
  | _ + 1, _, _, _, [] => .error (0, .unexpectedEnd)
  | count + 1, bits, low, high, byte :: rest =>
      if low ≤ byte && byte ≤ high then
        match following count (bits * 64 + (byte - 0x80)) 0x80 0xBF rest with
        | .ok code => .ok code
        | .error (accepted, problem) => .error (accepted + 1, problem)
      else .error (0, .invalidContinuation)

/-- Decode bytes from a position on; `skip` of them belong to the character before. -/
def decodeFrom : Nat → Nat → List Nat → Except DecodeError (List Char)
  | _, _, [] => .ok []
  | position, skip + 1, _ :: rest => decodeFrom (position + 1) skip rest
  | position, 0, byte :: rest =>
      match leadByte? byte with
      | none => .error ⟨position, 1, byte, .invalidStart⟩
      | some lead =>
          match following lead.following lead.bits lead.low lead.high rest with
          | .error (accepted, problem) => .error ⟨position, accepted + 1, byte, problem⟩
          | .ok code => (decodeFrom (position + 1) lead.following rest).map (Char.ofNat code :: ·)

def decode (bytes : List Nat) : Except DecodeError String :=
  (decodeFrom 0 0 bytes).map String.ofList

def encode (text : String) : List Nat := text.toUTF8.toList.map (·.toNat)

def Problem.reason : Problem → String
  | invalidStart => "invalid start byte"
  | invalidContinuation => "invalid continuation byte"
  | unexpectedEnd => "unexpected end of data"

def DecodeError.message (error : DecodeError) : String :=
  "'utf-8' codec can't decode " ++
    (if error.length = 1 then
      "byte 0x" ++ String.ofList (hexText 2 error.byte) ++ " in position " ++
        integerText error.position
    else
      "bytes in position " ++ integerText error.position ++ "-" ++
        integerText ((error.position + error.length : Nat) - 1)) ++
    ": " ++ error.problem.reason

end AnimationGrammar.Utf8
