import Reckoner.Double.Arithmetic
import Reckoner.Proofs.Double.Decimal

/-!
# Integers as decimals

A whole number reaches a double in two ways: it is rounded as it is, or it is written down and read
as a decimal. The reader of decimals settles long ones without looking at their digits, and this
makes no difference: a number of more than 310 digits is past the last ordinal in any case
(`Double.ordinals_le_nearest`), so both ways give the same double (`Decimal.toDouble_natural`).
-/

namespace Reckoner

namespace Double

/-! ### Large quotients -/

theorem div_le_divEven (n d : Nat) : n / d ≤ divEven n d := by
  unfold divEven
  dsimp only
  split
  · exact Nat.le_refl _
  · exact Nat.le_succ _

/-- From `2 ^ (52 + k)` units on, an ordinal has at least the exponent field `k + 1`. -/
theorem le_nearest_of_two_pow_le {n k : Nat} (h : 2 ^ (52 + k) ≤ n) :
    (k + 1) * significands ≤ nearest n 1 := by
  have hn : n ≠ 0 := Nat.ne_of_gt (Nat.lt_of_lt_of_le (Nat.two_pow_pos _) h)
  have hlog : 52 + k ≤ n.log2 := (Nat.le_log2 hn).mpr h
  have hquotient : significands ≤ n / 2 ^ (n.log2 - 52) := by
    rw [Nat.le_div_iff_mul_le (Nat.two_pow_pos _)]
    calc significands * 2 ^ (n.log2 - 52) = 2 ^ (52 + (n.log2 - 52)) := (Nat.pow_add 2 52 _).symm
      _ = 2 ^ n.log2 := by rw [show 52 + (n.log2 - 52) = n.log2 by omega]
      _ ≤ n := Nat.log2_self_le hn
  calc (k + 1) * significands ≤ (n.log2 - 52) * significands + significands := by
        rw [Nat.succ_mul]
        exact Nat.add_le_add_right (Nat.mul_le_mul_right _ (by omega)) _
    _ ≤ nearest n 1 := by
        rw [nearest, Nat.div_one, Nat.one_mul, Nat.pow_eq]
        exact Nat.add_le_add_left (Nat.le_trans hquotient (div_le_divEven _ _)) _

/-- A number of more than 310 digits is past the last ordinal. -/
theorem ordinals_le_nearest {n : Nat} (h : 10 ^ 310 ≤ n) :
    ordinals ≤ nearest (n * unitsPerOne) 1 := by
  -- the powers are too large to be looked into: only this fact about them is used
  have hpow : 2 ^ (52 + 2046) ≤ 10 ^ 310 * unitsPerOne := by decide +kernel
  exact le_nearest_of_two_pow_le (Nat.le_trans hpow (Nat.mul_le_mul_right _ h))

/-- Rounding does not look at the sign. -/
theorem ofOrdinal_not (negative : Bool) (a : Nat) :
    ofOrdinal (!negative) a = -ofOrdinal negative a := by
  unfold ofOrdinal
  split <;> rfl

end Double

namespace Decimal

/-- Reading a decimal does not look at the sign. -/
theorem toDouble_true (d : Decimal) : d.toDouble true = -d.toDouble false :=
  Double.ofOrdinal_not false d.nearest

/-- **A whole number is rounded as it is**, however many digits it has. -/
theorem toDouble_natural (negative : Bool) (n : Nat) :
    (⟨n, 0⟩ : Decimal).toDouble negative =
      Double.ofUnits negative (n * Double.unitsPerOne) 1 := by
  have hpoint : (⟨n, 0⟩ : Decimal).point = (Nat.toDigits 10 n).length := Int.add_zero _
  rw [toDouble, Double.ofUnits, nearest, hpoint]
  split
  · next hzero =>
    have hn : n = 0 := by
      simp only [Bool.or_eq_true, decide_eq_true_eq] at hzero
      omega
    rw [hn, Nat.zero_mul, Double.nearest_one_of_lt (by decide)]
  · split
    -- a number that is certain to overflow
    · next hlong =>
      have hlarge : 10 ^ 310 ≤ n := by
        rw [← Nat.not_lt, ← Nat.length_toDigits_le_iff (by decide) (by decide)]
        omega
      rw [Double.ofOrdinal_of_le (Nat.le_refl _),
        Double.ofOrdinal_of_le (Double.ordinals_le_nearest hlarge)]
    · rw [numerator, denominator]
      simp only [Int.neg_zero, Int.toNat_zero, Nat.pow_zero, Nat.pow_eq, Nat.mul_one]

end Decimal

end Reckoner
