import Reckoner.Double.Spelling

/-!
# Decimals of any size

A decimal with a sign, which keeps the digits it was written with; or an infinity, or a NaN, which
can be signaling and can carry a number. `BigDecimal.text` writes a decimal, and
`BigDecimal.read` reads one, as leniently as other numbers are read and more: all white space
around it and all low lines in it do not count.

The digits are never rounded, but their places have limits (`BigDecimal.fits`): a number with a
digit beyond them is refused.
-/

namespace Reckoner

/-- A **decimal** with a sign, an infinity, or a NaN. -/
inductive BigDecimal where
  | finite (negative : Bool) (decimal : Decimal)
  | infinite (negative : Bool)
  | nan (negative signaling : Bool) (payload : Nat)
deriving DecidableEq

namespace BigDecimal

/-! ### Writing -/

/-- The coefficient of a decimal with its point. It is written out unless the exponent is
positive or the first digit lies more than six places behind the point; otherwise one digit stands
before the point and the exponent has a sign. -/
def layout (d : Decimal) : List Char :=
  let digits := Nat.toDigits 10 d.coefficient
  let place := if d.exponent ≤ 0 && -6 < d.point then d.point else 1
  let mantissa :=
    if place ≤ 0 then '0' :: '.' :: (List.replicate (-place).toNat '0' ++ digits)
    else if digits.length ≤ place.toNat then
      digits ++ List.replicate (place.toNat - digits.length) '0'
    else digits.take place.toNat ++ '.' :: digits.drop place.toNat
  let shift := d.point - place
  if shift = 0 then mantissa
  else mantissa ++ 'E' :: (if shift < 0 then '-' else '+') :: Nat.toDigits 10 shift.natAbs

/-- The word for a NaN; the number zero is not written behind it. -/
def nanWord (signaling : Bool) (payload : Nat) : List Char :=
  (if signaling then "sNaN" else "NaN").toList ++
    if payload = 0 then [] else Nat.toDigits 10 payload

/-- The text of a decimal. -/
def text : BigDecimal → Text
  | finite s d => Text.ofChars ((if s then ['-'] else []) ++ layout d)
  | infinite s => if s then "-Infinity" else "Infinity"
  | nan s signaling payload =>
    Text.ofChars ((if s then ['-'] else []) ++ nanWord signaling payload)

/-! ### Reading -/

/-- Why there is no decimal for a text. -/
inductive ReadError where
  | misspelled
  /-- A digit stands beyond the limits. -/
  | outOfReach
deriving DecidableEq

/-- The message of a reading error. -/
def ReadError.message : ReadError → Text
  | misspelled => "[<class 'decimal.ConversionSyntax'>]"
  | outOfReach => "[<class 'decimal.InvalidOperation'>]"

/-- The highest place of a first digit. -/
def highestPlace : Int := 999999999999999999

/-- The lowest place of a last digit. -/
def lowestPlace : Int := -1999999999999999997

/-- Whether all digits of a decimal stand within the limits. Zero has one digit. -/
def fits (d : Decimal) : Bool := d.point - 1 ≤ highestPlace && lowestPlace ≤ d.exponent

/-- The decimal with this sign, if its digits stand within the limits. -/
def ofDecimal (negative : Bool) (d : Decimal) : Except ReadError BigDecimal :=
  if fits d then .ok (finite negative d) else .error .outOfReach

/-- The NaN that carries the number written behind its word. -/
def readNan (negative signaling : Bool) (payload : List Char) : Except ReadError BigDecimal :=
  match Spelling.natural? payload with
  | some n => .ok (nan negative signaling n)
  | none => .error .misspelled

/-- The decimal that characters behind a sign denote. -/
def readUnsigned (negative : Bool) (cs : List Char) : Except ReadError BigDecimal :=
  if Spelling.isInfinity cs then .ok (infinite negative)
  else
    match cs with
    | 'n' :: 'a' :: 'n' :: payload => readNan negative false payload
    | 's' :: 'n' :: 'a' :: 'n' :: payload => readNan negative true payload
    | cs =>
      match Spelling.decimal? cs with
      | some d => ofDecimal negative d
      | none => .error .misspelled

/-- The decimal that characters denote: an optional sign, then a number, an infinity or a NaN. -/
def readCharacters : List Char → Except ReadError BigDecimal
  | '-' :: cs => readUnsigned true cs
  | '+' :: cs => readUnsigned false cs
  | cs => readUnsigned false cs

/-- The decimal that a text denotes. -/
def read (t : Text) : Except ReadError BigDecimal :=
  match Spelling.characters? CodePoint.isSpace t with
  | some cs => readCharacters (cs.filter (· ≠ '_'))
  | none => .error .misspelled

end BigDecimal

end Reckoner
