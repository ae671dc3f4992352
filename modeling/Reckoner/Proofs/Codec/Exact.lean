import Reckoner.Proofs.Codec.Loading
import Reckoner.Proofs.Double.Order

/-!
# Decoding exact numbers

An integer or a fraction is decoded as what it is rounded to (`Exact.decode_datum`). That is the
nearest double (`Exact.isNearest_double`), and an infinity just where the number is refused
(`Exact.isInfinite_double_iff`).

Main statement: decoding exact numbers is total, monotone, and to nearest on both sides of the
overflow thresholds (`Expr.decode_exact`).
-/

namespace Reckoner

/-- The double that a quotient is rounded to is nearest to it. -/
theorem Double.isNearest_ofRational (n : ℤ) {d : ℕ} (hd : 0 < d) :
    IsNearest (n / d) (ofRational n d) := by
  have hpos : (0 : ℚ) < d := by exact_mod_cast hd
  have hrounds := rounds_nearest_mul n.natAbs hd
  have habs : |(n / d : ℚ)| = n.natAbs / d := by
    rw [abs_div, abs_of_pos hpos, ← Int.cast_abs, Int.abs_eq_natAbs, Int.cast_natCast]
  have hsign : (n / d : ℚ) < 0 ↔ n < 0 := by
    rw [div_lt_iff₀ hpos, zero_mul, Int.cast_lt_zero]
  exact ⟨_, by rwa [habs], by rw [ofRational, ofUnits, decide_eq_decide.mpr hsign]⟩

namespace Exact

/-- The number that an exact number is. -/
def number : Exact → ℚ
  | integer n => n
  | rational q => q

variable (d : Exact)

/-- **An exact number is rounded to nearest.** -/
theorem isNearest_double : Double.IsNearest d.number d.double := by
  cases d with
  | integer n =>
    have h := Double.isNearest_ofRational n Nat.one_pos
    rwa [Nat.cast_one, div_one] at h
  | rational q =>
    have h := Double.isNearest_ofRational q.num q.den_pos
    rwa [Rat.num_div_den] at h

theorem isNegative_datum : d.datum.isNegative = decide (d.number < 0) := by
  cases d with
  | integer n => exact decide_eq_decide.mpr Int.cast_lt_zero.symm
  | rational q => exact decide_eq_decide.mpr Rat.num_neg

/-- Numbers are rounded to an infinity from the midpoint of the largest double and the next power
of two on. -/
theorem isInfinite_double_iff :
    d.double.isInfinite = true ↔ 2 ^ 1024 - 2 ^ 970 ≤ |d.number| := by
  rw [← d.isNearest_double.eq_infinite_iff, ← isNegative_datum]
  refine ⟨d.double_eq_infinite, fun h => ?_⟩
  rw [h]
  rfl

/-- Any other double that a number is rounded to is finite. -/
theorem isFinite_double (h : ¬d.double.isInfinite = true) : d.double.isFinite = true := by
  have hnearest := d.isNearest_double
  cases hx : d.double with
  | finite negative a => rfl
  | infinite negative => exact absurd (by rw [hx]; rfl) h
  | nan payload => exact absurd hx (hnearest.ne_nan payload)

end Exact

/-- **Decoding exact numbers is total, monotone, and to nearest.** An exact number is refused as a
number exactly from the midpoint of the largest double and the next power of two on. It is always
decoded as a number, the one that it is if it is not refused, and else the infinity of its sign; in
either case that is the nearest double. The numbers that greater ones are decoded as are not
smaller. -/
theorem Expr.decode_exact (d : Exact) :
    (ofDatum d.datum = .error d.overflow ↔ 2 ^ 1024 - 2 ^ 970 ≤ |d.number|) ∧
    (∃ x, Double.IsNearest d.number x ∧
      decode d.datum = .ok (number x) ∧ (number x).isNumber = true ∧
      (|d.number| < 2 ^ 1024 - 2 ^ 970 → ofDatum d.datum = .ok (number x) ∧ x.isFinite = true) ∧
      (2 ^ 1024 - 2 ^ 970 ≤ |d.number| → x = .infinite (decide (d.number < 0)))) ∧
    ∀ d' : Exact, d.number ≤ d'.number → ∃ e e', decode d.datum = .ok e ∧
      decode d'.datum = .ok e' ∧ e.value.le e'.value = true := by
  refine ⟨?_, ⟨d.double, d.isNearest_double, d.decode_datum, rfl, fun hlt => ?_, fun hle => ?_⟩,
    fun d' hle => ⟨_, _, d.decode_datum, d'.decode_datum, ?_⟩⟩
  · rw [← d.isInfinite_double_iff, d.ofDatum_datum]
    split
    · next h => exact iff_of_true rfl h
    · next h => exact iff_of_false nofun h
  · have hfinite : ¬d.double.isInfinite = true := fun h =>
      not_lt.mpr (d.isInfinite_double_iff.mp h) hlt
    rw [d.ofDatum_datum, if_neg hfinite]
    exact ⟨rfl, d.isFinite_double hfinite⟩
  · exact d.isNearest_double.eq_infinite_iff.mpr hle
  · exact d.isNearest_double.le_of_le d'.isNearest_double hle

/-- Zero is a finite number, and the next power of two behind the largest double is refused, and
greater when both are decoded. -/
theorem Expr.decode_exact_overflow :
    (∃ x, ofDatum (.rational 0) = .ok (number x) ∧ x.isFinite = true) ∧
    ofDatum (.integer (2 ^ 1024)) = .error .integerOverflow ∧
    ∃ e e', decode (.rational 0) = .ok e ∧ decode (.integer (2 ^ 1024)) = .ok e' ∧
      e.value.le e'.value = true := by
  have hpower : (Exact.integer (2 ^ 1024)).number = 2 ^ 1024 := by
    rw [Exact.number, Int.cast_pow, Int.cast_ofNat]
  obtain ⟨-, ⟨x, -, -, -, hfinite, -⟩, hmonotone⟩ := decode_exact (.rational 0)
  refine ⟨⟨x, hfinite ?_⟩, (decode_exact (.integer (2 ^ 1024))).1.mpr ?_,
    hmonotone (.integer (2 ^ 1024)) ?_⟩
  · rw [Exact.number, abs_zero, sub_pos]
    exact pow_lt_pow_right₀ (by norm_num) (by norm_num)
  · rw [hpower]
    exact (sub_le_self _ (by positivity)).trans (le_abs_self _)
  · rw [hpower]
    exact pow_nonneg zero_le_two 1024

end Reckoner
