import AnimationGrammar.Text.CharClass

/-!
Quoted texts, in three ways of writing them.

`asciiQuoted` writes every character outside of printable ASCII as an escape, in UTF-16 units;
`plainQuoted` escapes only what JSON demands; `namedQuoted` is how a name is quoted in a message, with
single quotes unless the name itself suggests double ones.
-/

namespace AnimationGrammar

def hexDigitChar (n : Nat) : Char := Nat.digitChar n

/-- A number in hexadecimal, with exactly the given number of digits. -/
def hexText : Nat → Nat → List Char
  | 0, _ => []
  | width + 1, n => hexText width (n / 16) ++ [hexDigitChar (n % 16)]

def unitEscape (unit : Nat) : List Char := '\\' :: 'u' :: hexText 4 unit

/-- The one-letter escapes of JSON. -/
def shortEscape? : Char → Option Char
  | '"' => some '"'
  | '\\' => some '\\'
  | '\n' => some 'n'
  | '\r' => some 'r'
  | '\t' => some 't'
  | '\x0c' => some 'f'
  | '\x08' => some 'b'
  | _ => none

/-- A character beyond the basic plane as its two UTF-16 units. -/
def surrogates (code : Nat) : Nat × Nat :=
  (0xD800 + (code - 0x10000) / 0x400, 0xDC00 + (code - 0x10000) % 0x400)

/-- A character of a text in which only printable ASCII stands for itself. -/
def asciiEscaped (c : Char) : List Char :=
  match shortEscape? c with
  | some letter => ['\\', letter]
  | none =>
      if 32 ≤ c.toNat && c.toNat < 127 then [c]
      else if c.toNat < 0x10000 then unitEscape c.toNat
      else unitEscape (surrogates c.toNat).1 ++ unitEscape (surrogates c.toNat).2

/-- A text in double quotes, in ASCII. -/
def asciiQuoted (text : String) : String :=
  String.ofList ('"' :: text.toList.flatMap asciiEscaped ++ ['"'])

/-- A character of a text in which only controls, quotes and backslashes are escaped. -/
def plainEscaped (c : Char) : List Char :=
  match shortEscape? c with
  | some letter => ['\\', letter]
  | none => if c.toNat < 32 then unitEscape c.toNat else [c]

/-- A text in double quotes, escaped no more than JSON demands. -/
def plainQuoted (text : String) : String :=
  String.ofList ('"' :: text.toList.flatMap plainEscaped ++ ['"'])

/-- A character of a quoted name. -/
def nameEscaped (quote c : Char) : List Char :=
  if c = quote || c = '\\' then ['\\', c]
  else if c = '\t' then ['\\', 't']
  else if c = '\n' then ['\\', 'n']
  else if c = '\r' then ['\\', 'r']
  else if isVisibleChar c then [c]
  else if c.toNat < 0x100 then '\\' :: 'x' :: hexText 2 c.toNat
  else if c.toNat < 0x10000 then unitEscape c.toNat
  else '\\' :: 'U' :: hexText 8 c.toNat

/-- A name in a message: in single quotes, or in double ones if it has single quotes only. -/
def namedQuoted (text : String) : String :=
  let quote := if '\'' ∈ text.toList && !('"' ∈ text.toList) then '"' else '\''
  String.ofList (quote :: text.toList.flatMap (nameEscaped quote) ++ [quote])

end AnimationGrammar
