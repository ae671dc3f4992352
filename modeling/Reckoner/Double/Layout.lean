import Reckoner.Double.Arithmetic
import Reckoner.Double.Shortest

/-!
# The text of a double

A finite number is written with its shortest digits. It is written out with a decimal point when
the exponent of its first digit is at least -4 and less than 16, and with an exponent of a sign
and at least two digits otherwise. A number that is written out has a digit on both sides of the
point. The other numbers are written `inf`, `-inf` and `nan`.
-/

namespace Reckoner.Double

/-- The digits without the zeros at their end. -/
def significant (digits : List Char) : List Char :=
  (digits.reverse.dropWhile (· = '0')).reverse

/-- The number `0.digits * 10 ^ point`, written out. -/
def writtenOut (digits : List Char) (point : Int) : List Char :=
  if point ≤ 0 then '0' :: '.' :: (List.replicate (-point).toNat '0' ++ digits)
  else if digits.length ≤ point.toNat then
    digits ++ List.replicate (point.toNat - digits.length) '0' ++ ['.', '0']
  else digits.take point.toNat ++ '.' :: digits.drop point.toNat

/-- An exponent has a sign and at least two digits. -/
def exponentText (e : Int) : List Char :=
  let digits := Nat.toDigits 10 e.natAbs
  (if e < 0 then '-' else '+') :: (List.replicate (2 - digits.length) '0' ++ digits)

/-- The number `0.digits * 10 ^ point` with one digit before the point and an exponent. -/
def withExponent (digits : List Char) (point : Int) : List Char :=
  digits.take 1 ++ (if digits.length ≤ 1 then [] else '.' :: digits.drop 1) ++
    'e' :: exponentText (point - 1)

/-- The two forms, chosen by the exponent of the first digit. -/
def layout (digits : List Char) (point : Int) : List Char :=
  if -4 < point && point ≤ 16 then writtenOut digits point else withExponent digits point

/-- The text of a decimal other than zero. -/
def decimalText (d : Decimal) : List Char :=
  layout (significant (Nat.toDigits 10 d.coefficient)) d.point

/-- The text of a finite magnitude. -/
def magnitudeText (ordinal : Nat) : List Char :=
  if ordinal = 0 then ['0', '.', '0'] else decimalText (shortest ordinal)

/-- The text of a double. -/
def text : Double → Text
  | finite s a => Text.ofChars ((if s then ['-'] else []) ++ magnitudeText a)
  | infinite s => if s then "-inf" else "inf"
  | nan _ => "nan"

end Reckoner.Double
