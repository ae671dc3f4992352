import Reckoner.Double.Basic

/-!
# Arithmetic on doubles

Each operation computes the exact result in units and rounds it once. The exceptional cases are
those of IEEE 754 without traps: a division by zero gives an infinity or a NaN, and signed zeros
count.
-/

namespace Reckoner.Double

/-- The exact value of a finite number in units. -/
def signedUnits (negative : Bool) (ordinal : Nat) : Int :=
  if negative then -(units ordinal : Int) else units ordinal

/-- The number with the opposite sign; a NaN stays what it is. -/
def neg : Double → Double
  | finite s a => finite (!s) a
  | infinite s => infinite (!s)
  | nan p => nan p

/-- The sum. An exact zero is negative only if both operands are. -/
def add : Double → Double → Double
  | nan p, _ => nan p
  | _, nan p => nan p
  | infinite s, infinite t => if s = t then infinite s else nan 0
  | infinite s, finite .. => infinite s
  | finite .., infinite t => infinite t
  | finite s a, finite t b =>
    let total := signedUnits s a + signedUnits t b
    if total = 0 then zero (s && t) else ofUnits (total < 0) total.natAbs 1

/-- The difference is the sum with the opposite number. -/
def sub (x y : Double) : Double := add x (neg y)

/-- The product. An infinity times a zero is a NaN. -/
def mul : Double → Double → Double
  | nan p, _ => nan p
  | _, nan p => nan p
  | infinite s, infinite t => infinite (s != t)
  | infinite s, finite t b => if b.val = 0 then nan 0 else infinite (s != t)
  | finite s a, infinite t => if a.val = 0 then nan 0 else infinite (s != t)
  | finite s a, finite t b => ofUnits (s != t) (units a * units b) unitsPerOne

/-- The quotient. A zero divided by a zero is a NaN, and any other number divided by a zero is
the infinity with the product of the signs. -/
def div : Double → Double → Double
  | nan p, _ => nan p
  | _, nan p => nan p
  | infinite _, infinite _ => nan 0
  | infinite s, finite t _ => infinite (s != t)
  | finite s _, infinite t => zero (s != t)
  | finite s a, finite t b =>
    if b.val = 0 then (if a.val = 0 then nan 0 else infinite (s != t))
    else ofUnits (s != t) (units a * unitsPerOne) (units b)

instance : Neg Double := ⟨neg⟩
instance : Add Double := ⟨add⟩
instance : Sub Double := ⟨sub⟩
instance : Mul Double := ⟨mul⟩
instance : Div Double := ⟨div⟩

end Reckoner.Double
