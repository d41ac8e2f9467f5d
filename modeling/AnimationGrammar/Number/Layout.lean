import AnimationGrammar.Number.Decimal

/-!
The text of a number.

A `NumberLayout` fixes how a shortest decimal is laid out: for which exponents it is written
positionally, and whether a whole number keeps a fraction part.  `reportLayout` is the one used
wherever a double has to read back as a double, `boundLayout` the one of limits in messages.
-/

namespace AnimationGrammar

structure NumberLayout where
  /-- The leading exponents written positionally. -/
  positional : Int → Bool
  /-- The text after a whole number in positional notation. -/
  wholeSuffix : String
  infinity : String
  notANumber : String

/-- Positional from `1e-4` to below `1e16`, with a point in every positional number. -/
def reportLayout : NumberLayout where
  positional exponent := -4 ≤ exponent && exponent < 16
  wholeSuffix := ".0"
  infinity := "inf"
  notANumber := "nan"

/-- Always positional, and no point in a whole number. -/
def boundLayout : NumberLayout where
  positional _ := true
  wholeSuffix := ""
  infinity := "inf"
  notANumber := "NaN"

namespace NumberLayout

/-- Digits with the point after the leading `count` of them, filled up with zeros on both sides. -/
def placePoint (format : NumberLayout) (digits : List Char) (leading : Int) : String :=
  if leading < 0 then
    "0." ++ String.ofList (List.replicate (-leading - 1).toNat '0' ++ digits)
  else
    let count := leading.toNat + 1
    let whole := digits.take count ++ List.replicate (count - digits.length) '0'
    match digits.drop count with
    | [] => String.ofList whole ++ format.wholeSuffix
    | fraction => String.ofList (whole ++ '.' :: fraction)

/-- An exponent with a sign and at least two digits. -/
def exponentText (exponent : Int) : String :=
  let digits := decimalDigits exponent.natAbs
  let padded := if digits.length < 2 then '0' :: digits else digits
  (if exponent < 0 then "e-" else "e+") ++ String.ofList padded

def decimalText (format : NumberLayout) (d : Decimal) : String :=
  let digits := decimalDigits d.digits
  let leading := d.leadingExponent
  if format.positional leading then format.placePoint digits leading
  else
    let mantissa := match digits with
      | first :: second :: rest => first :: '.' :: second :: rest
      | short => short
    String.ofList mantissa ++ exponentText leading

def doubleText (format : NumberLayout) : Double → String
  | .finite negative magnitude =>
      (if negative then "-" else "") ++ format.decimalText magnitude.shortest
  | .infinite negative => (if negative then "-" else "") ++ format.infinity
  | .notANumber => format.notANumber

end NumberLayout

def integerText (n : Int) : String :=
  if n < 0 then String.ofList ('-' :: decimalDigits n.natAbs) else String.ofList (decimalDigits n.natAbs)

end AnimationGrammar
