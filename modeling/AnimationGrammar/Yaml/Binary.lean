import AnimationGrammar.Yaml.Problem

/-!
Bytes that a scalar stands for.

They are written in base 64: four digits make three bytes, and pads fill up the last four.  What is no digit
is skipped, and nothing is read after the pads.
-/

namespace AnimationGrammar.Yaml

/-- The value of a digit in base 64. -/
def base64Digit? (c : Char) : Option Nat :=
  if c.isUpper then some (c.toNat - 'A'.toNat)
  else if c.isLower then some (c.toNat - 'a'.toNat + 26)
  else if c.isDigit then some (c.toNat - '0'.toNat + 52)
  else if c = '+' then some 62
  else if c = '/' then some 63
  else none

/-- The bytes of a text in base 64.  So many of four digits have been read; with them come the bits that have
made no byte yet, and the number of pads. -/
def decodeBase64 (place bits pads : Nat) : List Char → Except Problem (List Nat)
  | [] => if place = 0 then .ok [] else malformed
  | c :: rest =>
      if c = '=' then
        if place < 2 then decodeBase64 place bits pads rest
        else if 4 ≤ place + (pads + 1) then .ok []
        else decodeBase64 place bits (pads + 1) rest
      else
        match base64Digit? c, place with
        | none, _ => decodeBase64 place bits pads rest
        | some digit, 0 => decodeBase64 1 digit 0 rest
        | some digit, 1 => (decodeBase64 2 (digit % 16) 0 rest).map ((bits * 4 + digit / 16) :: ·)
        | some digit, 2 => (decodeBase64 3 (digit % 4) 0 rest).map ((bits * 16 + digit / 4) :: ·)
        | some digit, _ => (decodeBase64 0 0 0 rest).map ((bits * 64 + digit) :: ·)

/-- The bytes that a text stands for, which has to be in ASCII. -/
def readBinary (text : String) : Except Problem (List Nat) :=
  if text.toList.all (·.toNat < 128) then decodeBase64 0 0 0 text.toList else malformed

end AnimationGrammar.Yaml
