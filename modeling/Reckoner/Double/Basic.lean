/-!
# Binary64 numbers

A double is a sign with a finite magnitude, an infinity, or a NaN. The finite magnitudes are
numbered in ascending order from zero, and the number of a magnitude (its *ordinal*) is the bit
pattern of its exponent and significand fields. All exact computation is done in natural numbers
of *units*, a unit being the least positive magnitude, `2 ^ -1074`:

* `Double.units` gives the units of an ordinal. Below `2 ^ 53` the two are equal; from there on
  each run of `2 ^ 52` ordinals has twice the spacing of the run before it.
* `Double.nearest` rounds a quotient of units to an ordinal, ties to even. An ordinal past the
  last one is an overflow.

A NaN carries a payload that tells which computation made it: two NaNs are the same number only
if their payloads agree.
-/

namespace Reckoner

/-- How many significands go with one exponent field: `2 ^ 52`. -/
abbrev Double.significands : Nat := 4503599627370496

/-- How many finite magnitudes there are: those of 2047 exponent fields. -/
abbrev Double.ordinals : Nat := 2047 * significands

/-- A **double** is a binary64 number. -/
inductive Double where
  | finite (negative : Bool) (ordinal : Fin Double.ordinals)
  | infinite (negative : Bool)
  | nan (payload : Nat)
deriving DecidableEq

namespace Double

/-! ### Ordinals and units -/

/-- The number one in units. -/
def unitsPerOne : Nat := Nat.pow 2 1074

/-- The units of the magnitude with this ordinal. The exponent fields 0 and 1 share the spacing
of one unit, and each later one doubles it. -/
def units (ordinal : Nat) : Nat :=
  let doublings := ordinal / significands - 1
  (ordinal - doublings * significands) * Nat.pow 2 doublings

/-- The quotient `n / d` rounded to the nearest integer, a tie to the even one. -/
def divEven (n d : Nat) : Nat :=
  let q := n / d
  let r := n % d
  if 2 * r < d || (2 * r = d && q % 2 = 0) then q else q + 1

/-- The ordinal nearest to `n / d` units, a tie going to the even ordinal. It is not bounded: an
ordinal that is no magnitude's stands for an overflow. -/
def nearest (n d : Nat) : Nat :=
  let doublings := (n / d).log2 - 52
  doublings * significands + divEven n (d * Nat.pow 2 doublings)

/-! ### Numbers -/

/-- The zero with this sign. -/
def zero (negative : Bool) : Double := finite negative ⟨0, by decide⟩

instance : Inhabited Double := ⟨zero false⟩

/-- The double with this sign and ordinal, an infinity past the last ordinal. -/
def ofOrdinal (negative : Bool) (ordinal : Nat) : Double :=
  if h : ordinal < ordinals then finite negative ⟨ordinal, h⟩ else infinite negative

theorem ofOrdinal_fin (negative : Bool) (a : Fin ordinals) :
    ofOrdinal negative a = finite negative a := dif_pos a.2

theorem ofOrdinal_of_le {negative : Bool} {a : Nat} (h : ordinals ≤ a) :
    ofOrdinal negative a = infinite negative := dif_neg (Nat.not_lt.mpr h)

theorem ofOrdinal_eq_finite_iff {s t : Bool} {a : Nat} {b : Fin ordinals} :
    ofOrdinal s a = finite t b ↔ s = t ∧ a = b := by
  constructor
  · intro h
    unfold ofOrdinal at h
    split at h
    · obtain ⟨rfl, rfl⟩ := finite.inj h
      exact ⟨rfl, rfl⟩
    · cases h
  · rintro ⟨rfl, rfl⟩
    exact ofOrdinal_fin s b

theorem ofOrdinal_eq_infinite_iff {s t : Bool} {a : Nat} :
    ofOrdinal s a = infinite t ↔ s = t ∧ ordinals ≤ a := by
  constructor
  · intro h
    unfold ofOrdinal at h
    split at h
    · cases h
    · next hlast => exact ⟨infinite.inj h, Nat.not_lt.mp hlast⟩
  · rintro ⟨rfl, hle⟩
    exact ofOrdinal_of_le hle

/-- Nothing is rounded to a NaN. -/
theorem ofOrdinal_ne_nan (negative : Bool) (a p : Nat) : ofOrdinal negative a ≠ nan p := by
  unfold ofOrdinal
  split <;> nofun

/-- The double nearest to `n / d` units with this sign. -/
def ofUnits (negative : Bool) (n d : Nat) : Double := ofOrdinal negative (nearest n d)

/-- The double nearest to the rational `n / d`, an infinity if it is too large. -/
def ofRational (n : Int) (d : Nat) : Double := ofUnits (n < 0) (n.natAbs * unitsPerOne) d

/-- Whether the number is neither an infinity nor a NaN. -/
def isFinite : Double → Bool
  | finite .. => true
  | _ => false

/-- Whether the number is an infinity. -/
def isInfinite : Double → Bool
  | infinite _ => true
  | _ => false

/-- Equality as numbers: the two zeros are equal, and NaNs are equal when one computation made
both. -/
def same : Double → Double → Bool
  | finite s a, finite t b => a = b && (s = t || a.val = 0)
  | infinite s, infinite t => s = t
  | nan p, nan q => p = q
  | _, _ => false

end Double

end Reckoner
