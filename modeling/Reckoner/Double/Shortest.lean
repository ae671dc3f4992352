import Reckoner.Double.Decimal

/-!
# Shortest decimals

The shortest decimal of a positive magnitude is the one with the fewest digits among those that
read back as that magnitude, and of several the nearest one, an exact tie going to the even
coefficient. For each number of digits only the two neighbours of the magnitude on the grid of
decimals with that many digits can read back: if any grid point does, one of them does.

Seventeen digits always suffice; `Double.shortest` falls back on the exact decimal, so that its
answer reads back whatever the search finds.
-/

namespace Reckoner.Double

/-- The magnitude `u` units lies below ten to this power and not below a tenth of that. The least
magnitude exceeds `10 ^ -324`. -/
def decimalPoint (u : Nat) : Int :=
  (Nat.toDigits 10 (u * Nat.pow 10 324 / unitsPerOne)).length - 324

/-- The exact decimal of `u` units. -/
def exactDecimal (u : Nat) : Decimal := ⟨u * Nat.pow 5 1074, -1074⟩

/-- Of the two multiples of `10 ^ k` next to a magnitude, the nearer one that reads back as it. -/
def neighbour (ordinal : Nat) (k : Int) : Option Decimal :=
  let n := units ordinal * Nat.pow 10 (-k).toNat
  let d := unitsPerOne * Nat.pow 10 k.toNat
  let lower : Decimal := ⟨n / d, k⟩
  let upper : Decimal := ⟨n / d + 1, k⟩
  let preferred := if divEven n d = n / d then [lower, upper] else [upper, lower]
  preferred.find? fun c => c.nearest = ordinal

/-- The shortest decimal that reads back as the magnitude. -/
def shortest (ordinal : Nat) : Decimal :=
  let u := units ordinal
  let point := decimalPoint u
  ((List.range 17).findSome? fun n : Nat => neighbour ordinal (point - (n + 1))).getD (exactDecimal u)

end Reckoner.Double
