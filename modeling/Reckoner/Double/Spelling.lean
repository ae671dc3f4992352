import Reckoner.Double.Decimal
import Reckoner.Text.Blank
import Reckoner.Text.Digit

/-!
# Numbers as people spell them

Numbers that come from outside, and not from an expression or a document, are read leniently. White
space around a number does not count; for doubles and integers the information separators are no
white space (`Spelling.isPadding`). Words may be written with letters of both cases, digits in any
script, and there need not be digits on both sides of a point. Low lines may stand between digits.

`Double.ofText?` reads a double, `Spelling.integer?` an integer; the other functions are the parts
that readings of more kinds are made of.
-/

namespace Reckoner

namespace Spelling

/-- What may stand around a double or an integer: white space but for the information separators. -/
def isPadding (c : CodePoint) : Bool := c.isSpace && !(0x1C ≤ c.value && c.value ≤ 0x1F)

/-- A text without what surrounds it. -/
def trimmed (surrounds : CodePoint → Bool) (t : Text) : Text :=
  ((t.dropWhile surrounds).reverse.dropWhile surrounds).reverse

/-- A code point as a reader takes it: a digit of any script is an ASCII digit and a capital a
small letter. No other code point outside ASCII can occur in a number. -/
def plain? (c : CodePoint) : Option Char :=
  match c.decimalValue? with
  | some n => some (Nat.digitChar n)
  | none =>
    match c with
    | .scalar c => if c.toNat < 0x80 then some c.toLower else none
    | .surrogate _ => none

/-- The characters that a number is spelled with. -/
def characters? (surrounds : CodePoint → Bool) (t : Text) : Option (List Char) :=
  (trimmed surrounds t).mapM plain?

/-- The characters without the low lines, each of which stands between two digits. The flag says
whether a digit stands before them. -/
def closeUp? (behindDigit : Bool) : List Char → Option (List Char)
  | [] => some []
  | '_' :: c :: cs =>
    if behindDigit && c.isDigit then (closeUp? true cs).map (c :: ·) else none
  | c :: cs => if c = '_' then none else (closeUp? c.isDigit cs).map (c :: ·)

/-- The number that digits denote; no digits at all denote zero. -/
def natural? (cs : List Char) : Option Nat :=
  if cs.all Char.isDigit then some (Nat.ofDigitChars 10 cs 0) else none

/-- The number that an optional sign and digits denote. -/
def signedNatural? : List Char → Option Int
  | '-' :: c :: cs => (natural? (c :: cs)).map fun n => -n
  | '+' :: c :: cs => (natural? (c :: cs)).map fun n => n
  | c :: cs => (natural? (c :: cs)).map fun n => n
  | [] => none

/-- The exponent behind the digits of a number: none at all, or a letter and an integer. -/
def exponent? : List Char → Option Int
  | [] => some 0
  | 'e' :: cs => signedNatural? cs
  | _ => none

/-- The number that digits, maybe with a point, and an exponent denote. -/
def decimal? (cs : List Char) : Option Decimal :=
  let (whole, rest) := cs.span Char.isDigit
  let (fraction, rest) :=
    match rest with
    | '.' :: rest => rest.span Char.isDigit
    | rest => ([], rest)
  if whole.isEmpty && fraction.isEmpty then none
  else
    (exponent? rest).map fun e =>
      ⟨Nat.ofDigitChars 10 (whole ++ fraction) 0, e - fraction.length⟩

/-- The words for an infinity. -/
def isInfinity (cs : List Char) : Bool := cs = "inf".toList || cs = "infinity".toList

/-- The integer that a text denotes. -/
def integer? (t : Text) : Option Int := do
  let cs ← characters? isPadding t
  let cs ← closeUp? false cs
  signedNatural? cs

end Spelling

namespace Double

/-- The double that characters behind a sign denote. A NaN gets the payload that the caller
gives. -/
def ofUnsigned? (negative : Bool) (payload : Nat) (cs : List Char) : Option Double :=
  if Spelling.isInfinity cs then some (infinite negative)
  else if cs = "nan".toList then some (nan payload)
  else (Spelling.decimal? cs).map (Decimal.toDouble negative)

/-- The double that characters denote: an optional sign, then a number, an infinity or a NaN. -/
def ofCharacters? (payload : Nat) : List Char → Option Double
  | '-' :: cs => ofUnsigned? true payload cs
  | '+' :: cs => ofUnsigned? false payload cs
  | cs => ofUnsigned? false payload cs

/-- The double that a text denotes. -/
def ofText? (payload : Nat) (t : Text) : Option Double := do
  let cs ← Spelling.characters? Spelling.isPadding t
  let cs ← Spelling.closeUp? false cs
  ofCharacters? payload cs

end Double

end Reckoner
