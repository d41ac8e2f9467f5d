import AnimationGrammar.Text.HiddenTable
import AnimationGrammar.Text.WordTable

/-!
Classes of characters.

Each class is decided by comparisons below code point 128 and by a table of the Unicode character
database above it.
-/

namespace AnimationGrammar

/-- Whether a code point lies in a class given by the points where it begins and ends in turn. -/
def insideRuns (boundaries : List Nat) (code : Nat) : Bool :=
  (boundaries.takeWhile (· ≤ code)).length % 2 = 1

/-- A letter, a character that stands for a number, or the underscore. -/
def isWordChar (c : Char) : Bool :=
  if c.toNat < 128 then c.isAlphanum || c == '_' else insideRuns wordBoundaries c.toNat

/-- The digits zero beyond ASCII; after each of them come those from one to nine. -/
def digitZeros : List Nat := [
    1632, 1776, 1984, 2406, 2534, 2662, 2790, 2918, 3046, 3174, 3302, 3430, 3558, 3664, 3792,
    3872, 4160, 4240, 6112, 6160, 6470, 6608, 6784, 6800, 6992, 7088, 7232, 7248, 42528, 43216,
    43264, 43472, 43504, 43600, 44016, 65296, 66720, 68912, 69734, 69872, 69942, 70096, 70384,
    70736, 70864, 71248, 71360, 71472, 71904, 72016, 72784, 73040, 73120, 92768, 92864, 93008,
    120782, 120792, 120802, 120812, 120822, 123200, 123632, 125264, 130032]

/-- A decimal digit of any script. -/
def isDigitChar (c : Char) : Bool :=
  if c.toNat < 128 then c.isDigit
  else digitZeros.any fun first => first ≤ c.toNat && c.toNat < first + 10

/-- What a decimal digit of any script is worth. -/
def decimalValue? (c : Char) : Option Nat :=
  if c.toNat < 128 then (if c.isDigit then some (c.toNat - '0'.toNat) else none)
  else
    (digitZeros.find? fun first => first ≤ c.toNat && c.toNat < first + 10).map fun first =>
      c.toNat - first

/-- The characters beyond ASCII that stand for a blank or for the end of a line. -/
def blankCodes : List Nat := [
    0x85, 0xA0, 0x1680, 0x2000, 0x2001, 0x2002, 0x2003, 0x2004, 0x2005, 0x2006, 0x2007, 0x2008,
    0x2009, 0x200A, 0x2028, 0x2029, 0x202F, 0x205F, 0x3000]

/-- A blank, or a character that ends a line. -/
def isBlankChar (c : Char) : Bool :=
  if c.toNat < 128 then c == ' ' || ('\t' ≤ c && c ≤ '\r') else c.toNat ∈ blankCodes

/-- A character that shows itself when printed. -/
def isVisibleChar (c : Char) : Bool :=
  if c.toNat < 128 then 32 ≤ c.toNat && c.toNat < 127 else !insideRuns hiddenBoundaries c.toNat

end AnimationGrammar
