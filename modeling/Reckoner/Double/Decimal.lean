import Reckoner.Double.Basic
import Reckoner.Text.CodePoint

/-!
# Decimal numerals

A decimal `⟨c, k⟩` denotes `c * 10 ^ k`. `Decimal.toDouble` is the nearest double, ties to even;
decimals that are certain to overflow or to vanish are settled by their length alone, so that no
exponent is too large to read.

A numeral is the written form: digits, maybe a point and digits, maybe an exponent.
`Numeral.read` takes the longest numeral at the beginning of a text.
-/

namespace Reckoner

/-- The number `coefficient * 10 ^ exponent`. -/
structure Decimal where
  coefficient : Nat
  exponent : Int
deriving DecidableEq

namespace Decimal

/-- One more than the place of the first digit: the number is less than ten to this power and,
unless it is zero, not less than a tenth of that. -/
def point (d : Decimal) : Int := (Nat.toDigits 10 d.coefficient).length + d.exponent

/-- The numerator of a decimal. -/
def numerator (d : Decimal) : Nat := d.coefficient * Nat.pow 10 d.exponent.toNat

/-- The denominator of a decimal, a power of ten. -/
def denominator (d : Decimal) : Nat := Nat.pow 10 (-d.exponent).toNat

/-- The nearest ordinal. From `10 ^ 310` on a number is past the last ordinal, and one below
`10 ^ -330` is nearest to zero. -/
def nearest (d : Decimal) : Nat :=
  if d.coefficient = 0 || d.point < -330 then 0
  else if 310 < d.point then Double.ordinals
  else Double.nearest (d.numerator * Double.unitsPerOne) d.denominator

/-- The nearest double with the given sign. -/
def toDouble (negative : Bool) (d : Decimal) : Double := Double.ofOrdinal negative d.nearest

end Decimal

/-! ### Written numerals -/

/-- The digits at the beginning of a text, and the rest of it. -/
def Text.leadingDigits : Text → List Char × Text
  | [] => ([], [])
  | .surrogate o :: t => ([], .surrogate o :: t)
  | .scalar c :: t =>
    if c.isDigit then
      let (digits, rest) := leadingDigits t
      (c :: digits, rest)
    else ([], .scalar c :: t)

/-- The leading digits and the rest make up the text. -/
theorem Text.ofChars_leadingDigits_append (t : Text) :
    Text.ofChars (leadingDigits t).1 ++ (leadingDigits t).2 = t := by
  fun_induction leadingDigits t <;> simp_all

/-- The leading digits and the rest have the length of the text. -/
theorem Text.length_leadingDigits (t : Text) :
    (leadingDigits t).1.length + (leadingDigits t).2.length = t.length := by
  have h := congrArg List.length (ofChars_leadingDigits_append t)
  simpa using h

/-- A **numeral**: the digits before the point, those after it, and the exponent. -/
structure Numeral where
  whole : List Char
  fraction : List Char
  exponent : Int
deriving DecidableEq

namespace Numeral

/-- The number that a numeral denotes. -/
def decimal (n : Numeral) : Decimal :=
  ⟨Nat.ofDigitChars 10 (n.whole ++ n.fraction) 0, n.exponent - n.fraction.length⟩

/-- The digits after a point, if at least one follows it. -/
def readFraction : Text → List Char × Text
  | .scalar '.' :: t =>
    match Text.leadingDigits t with
    | ([], _) => ([], .scalar '.' :: t)
    | (digits, rest) => (digits, rest)
  | t => ([], t)

/-- The digits of an exponent behind its sign, if there is at least one. -/
def readExponentDigits (negative : Bool) (t : Text) : Option (Int × Text) :=
  match Text.leadingDigits t with
  | ([], _) => none
  | (digits, rest) =>
    let n : Int := Nat.ofDigitChars 10 digits 0
    some (if negative then -n else n, rest)

/-- The exponent behind its letter: an optional sign and at least one digit. -/
def readSignedExponent : Text → Option (Int × Text)
  | .scalar '+' :: t => readExponentDigits false t
  | .scalar '-' :: t => readExponentDigits true t
  | t => readExponentDigits false t

/-- The exponent at the beginning of a text; there is none unless it is complete. -/
def readExponent : Text → Int × Text
  | .scalar c :: t =>
    if c = 'e' || c = 'E' then (readSignedExponent t).getD (0, .scalar c :: t)
    else (0, .scalar c :: t)
  | t => (0, t)

/-- The longest numeral at the beginning of a text, and the rest. Where no digit begins the text
the numeral has no digits. -/
def read (t : Text) : Numeral × Text :=
  let (whole, t) := Text.leadingDigits t
  let (fraction, t) := readFraction t
  let (exponent, t) := readExponent t
  (⟨whole, fraction, exponent⟩, t)

/-- The number written by a text that is a numeral. -/
def decimalOf (t : Text) : Decimal := (read t).1.decimal

/-! ### Reading does not go back -/

theorem length_readFraction_le (t : Text) : (readFraction t).2.length ≤ t.length := by
  unfold readFraction
  split
  · next t =>
    have h := Text.length_leadingDigits t
    split
    · exact Nat.le_refl _
    · next hd =>
      rw [hd] at h
      dsimp only at h
      simp only [List.length_cons]
      omega
  · exact Nat.le_refl _

theorem length_of_readExponentDigits {s : Bool} {t rest : Text} {e : Int}
    (h : readExponentDigits s t = some (e, rest)) : rest.length ≤ t.length := by
  unfold readExponentDigits at h
  have hl := Text.length_leadingDigits t
  split at h
  · cases h
  · next hd =>
    rw [hd] at hl
    cases h
    dsimp only at hl
    omega

theorem length_of_readSignedExponent {t rest : Text} {e : Int}
    (h : readSignedExponent t = some (e, rest)) : rest.length ≤ t.length := by
  unfold readSignedExponent at h
  split at h
  · exact Nat.le_succ_of_le (length_of_readExponentDigits h)
  · exact Nat.le_succ_of_le (length_of_readExponentDigits h)
  · exact length_of_readExponentDigits h

theorem length_readExponent_le (t : Text) : (readExponent t).2.length ≤ t.length := by
  unfold readExponent
  split
  · next c t =>
    split
    · cases h : readSignedExponent t with
      | none => exact Nat.le_refl _
      | some r => exact Nat.le_succ_of_le (length_of_readSignedExponent h)
    · exact Nat.le_refl _
  · exact Nat.le_refl _

end Numeral

end Reckoner
