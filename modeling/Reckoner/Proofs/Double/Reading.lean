import Mathlib.Algebra.Order.Field.Power
import Reckoner.Proofs.Double.Nearest
import Reckoner.Proofs.Token.Literal

/-!
# Literals are read to nearest

A decimal and a literal denote a rational number each (`Decimal.rational`, `Literal.rational`), and
both are converted to the double nearest to it. A decimal that is settled by its length alone is no
exception: one below `10 ^ -330` vanishes (`Decimal.rational_le`), and one from `10 ^ 310` on
overflows (`Decimal.le_rational_of_lt_point`).

Main statements: `Decimal.isNearest_toDouble`, `Literal.isNearest_value`. So literals that denote one
number have one value (`Literal.value_congr`), and it is known which of them overflow and which
vanish (`Literal.value_eq_infinite_iff`, `Literal.value_eq_zero_iff`).
-/

namespace Reckoner

namespace Decimal

/-- The number that a decimal denotes. -/
def rational (d : Decimal) : ℚ := d.coefficient * 10 ^ d.exponent

theorem rational_nonneg (d : Decimal) : 0 ≤ d.rational :=
  mul_nonneg (Nat.cast_nonneg _) (zpow_nonneg (by norm_num) _)

/-- Zeros at the end of a coefficient do not change the number. -/
theorem rational_padded (d : Decimal) (m : Nat) : (d.padded m).rational = d.rational := by
  have hpow : (10 : ℚ) ^ m ≠ 0 := pow_ne_zero m (by norm_num)
  rw [rational, rational, padded, zpow_sub₀ (by norm_num), zpow_natCast]
  push_cast
  field_simp

theorem rational_eq_div (d : Decimal) : d.rational = (d.numerator : ℚ) / d.denominator := by
  have hexp : (d.exponent.toNat : ℤ) - (-d.exponent).toNat = d.exponent := by omega
  rw [numerator, denominator, Nat.pow_eq, Nat.pow_eq, Nat.cast_mul, Nat.cast_pow, Nat.cast_pow,
    mul_div_assoc, ← zpow_natCast, ← zpow_natCast, ← zpow_sub₀ (by norm_num), hexp]
  rfl

/-- A decimal is less than ten to its point. -/
theorem rational_lt (d : Decimal) : d.rational < 10 ^ d.point := by
  have hcoefficient : d.coefficient < 10 ^ (Nat.toDigits 10 d.coefficient).length :=
    (Nat.length_toDigits_le_iff (by decide) Nat.length_toDigits_pos).mp (Nat.le_refl _)
  rw [rational, point, zpow_add₀ (by norm_num), zpow_natCast]
  exact mul_lt_mul_of_pos_right (by exact_mod_cast hcoefficient) (zpow_pos (by norm_num) _)

/-- A positive decimal is not less than a tenth of that. -/
theorem le_rational {d : Decimal} (hd : 0 < d.coefficient) : 10 ^ (d.point - 1) ≤ d.rational := by
  obtain ⟨n, hn⟩ : ∃ n, (Nat.toDigits 10 d.coefficient).length = n + 1 :=
    Nat.exists_eq_succ_of_ne_zero (Nat.ne_of_gt Nat.length_toDigits_pos)
  have hcoefficient : 10 ^ n ≤ d.coefficient := by
    rcases Nat.eq_zero_or_pos n with rfl | hpos
    · exact hd
    · rw [← Nat.not_lt, ← Nat.length_toDigits_le_iff (by decide) hpos]
      omega
  have hpoint : d.point - 1 = n + d.exponent := by
    rw [point, hn]
    omega
  rw [rational, hpoint, zpow_add₀ (by norm_num), zpow_natCast]
  exact mul_le_mul_of_nonneg_right (by exact_mod_cast hcoefficient) (zpow_nonneg (by norm_num) _)

/-- A decimal that is taken for zero, because of its length or as it is, vanishes. -/
theorem rational_le {d : Decimal} (hd : d.coefficient = 0 ∨ d.point < -330) :
    d.rational ≤ Double.magnitude 1 / 2 := by
  have hsmall : Double.unitsPerOne * 2 ≤ 10 ^ 331 := by decide +kernel
  have hpos : (0 : ℚ) < Double.unitsPerOne := by exact_mod_cast Double.unitsPerOne_pos
  have hbound : d.rational ≤ 1 / 10 ^ 331 := by
    rcases hd with hzero | hpoint
    · rw [rational, hzero, Nat.cast_zero, zero_mul]
      exact one_div_nonneg.mpr (pow_nonneg (by norm_num) _)
    · calc d.rational ≤ 10 ^ d.point := le_of_lt d.rational_lt
        _ ≤ 10 ^ (-331 : ℤ) := zpow_le_zpow_right₀ (by norm_num) (by omega)
        _ = 1 / 10 ^ 331 := by rw [zpow_neg, one_div]; rfl
  calc d.rational ≤ 1 / 10 ^ 331 := hbound
    _ ≤ 1 / (Double.unitsPerOne * 2) :=
        one_div_le_one_div_of_le (by linarith) (by exact_mod_cast hsmall)
    _ = Double.magnitude 1 / 2 := by rw [Double.magnitude_one, div_div]

/-- A decimal that is taken for an overflow because of its length overflows. -/
theorem le_rational_of_lt_point {d : Decimal} (hc : 0 < d.coefficient) (hd : 310 < d.point) :
    2 ^ 1024 - 2 ^ 970 ≤ d.rational := by
  have hlarge : (2 : ℕ) ^ 1024 ≤ 10 ^ 310 := by decide +kernel
  have hpos : (0 : ℚ) < 2 ^ 970 := pow_pos two_pos 970
  calc (2 ^ 1024 - 2 ^ 970 : ℚ) ≤ 2 ^ 1024 := sub_le_self _ (le_of_lt hpos)
    _ ≤ 10 ^ 310 := by exact_mod_cast hlarge
    _ = 10 ^ (310 : ℤ) := rfl
    _ ≤ 10 ^ (d.point - 1) := zpow_le_zpow_right₀ (by norm_num) (by omega)
    _ ≤ d.rational := le_rational hc

/-- **A decimal is converted to the nearest double.** -/
theorem isNearest_toDouble (d : Decimal) : Double.IsNearest d.rational (d.toDouble false) := by
  have hden : 0 < d.denominator := Nat.pow_pos (by decide)
  have hrounds : Double.Rounds d.rational
      (Double.nearest (d.numerator * Double.unitsPerOne) d.denominator) := by
    rw [d.rational_eq_div]
    exact Double.rounds_nearest_mul d.numerator hden
  refine ⟨_, by rwa [abs_of_nonneg d.rational_nonneg], ?_⟩
  rw [decide_eq_false (not_lt.mpr d.rational_nonneg), toDouble, nearest]
  split
  · next hsmall =>
    simp only [Bool.or_eq_true, decide_eq_true_eq] at hsmall
    rw [hrounds.eq_zero_iff.mpr (rational_le hsmall)]
  · next hsmall =>
    simp only [Bool.or_eq_true, decide_eq_true_eq, not_or] at hsmall
    split
    · next hlong =>
      have hpos : 0 < d.coefficient := Nat.pos_of_ne_zero hsmall.1
      rw [Double.ofOrdinal_of_le (Nat.le_refl _), Double.ofOrdinal_of_le]
      exact hrounds.ordinals_le_iff.mpr (le_rational_of_lt_point hpos hlong)
    · rfl

end Decimal

namespace Literal

/-- The number that a literal denotes: its whole part and its fraction, times ten to its
exponent. -/
def rational (l : Literal) : ℚ :=
  (l.whole.value + l.fraction.elim 0 fun ds => (ds.value : ℚ) / 10 ^ ds.1.length) *
    10 ^ l.exponent.elim 0 Exponent.value

/-- The parts of a literal denote the same number as the literal. -/
theorem rational_decimal (l : Literal) : l.numeral.decimal.rational = l.rational := by
  obtain ⟨whole, fraction, exponent⟩ := l
  cases fraction with
  | none => simp [rational, Decimal.rational, Numeral.decimal, numeral, Digits.value]
  | some ds =>
    have hpos : (10 : ℚ) ^ ds.1.length ≠ 0 := pow_ne_zero _ (by norm_num)
    have hcoefficient : Nat.ofDigitChars 10 (whole.1 ++ ds.1) 0 =
        10 ^ ds.1.length * whole.value + ds.value := by
      rw [Nat.ofDigitChars_append, Nat.ofDigitChars_eq_ofDigitChars_zero]
      rfl
    simp only [rational, Decimal.rational, Numeral.decimal, numeral, Option.elim_some, hcoefficient]
    rw [zpow_sub₀ (by norm_num), zpow_natCast]
    push_cast
    field_simp

/-- **The value of a literal is the double nearest to the number that it denotes.** -/
theorem isNearest_value (l : Literal) : Double.IsNearest l.rational l.value := by
  rw [← l.rational_decimal]
  exact l.numeral.decimal.isNearest_toDouble

/-- Literals that denote the same number have the same value. -/
theorem value_congr {l l' : Literal} (h : l.rational = l'.rational) : l.value = l'.value :=
  (h ▸ l.isNearest_value).unique l'.isNearest_value

theorem rational_nonneg (l : Literal) : 0 ≤ l.rational := by
  rw [← l.rational_decimal]
  exact l.numeral.decimal.rational_nonneg

/-- A literal overflows from the midpoint of the largest double and the next power of two on. -/
theorem value_eq_infinite_iff (l : Literal) :
    l.value = .infinite false ↔ 2 ^ 1024 - 2 ^ 970 ≤ l.rational := by
  have h := l.isNearest_value.eq_infinite_iff
  rwa [decide_eq_false (not_lt.mpr l.rational_nonneg), abs_of_nonneg l.rational_nonneg] at h

/-- A literal vanishes up to half of the least magnitude. -/
theorem value_eq_zero_iff (l : Literal) :
    l.value = .zero false ↔ l.rational ≤ Double.magnitude 1 / 2 := by
  have h := l.isNearest_value.eq_zero_iff
  rwa [decide_eq_false (not_lt.mpr l.rational_nonneg), abs_of_nonneg l.rational_nonneg] at h

end Literal

end Reckoner
