import Reckoner.Double.Arithmetic
import Reckoner.Proofs.Double.Nearest

/-!
# Doubles in order

Doubles are compared as the numbers that they stand for (`Double.finite_le_finite_iff`), between the
two infinities, and a NaN is not comparable with anything (`Double.le`). Rounding keeps the order:
of two numbers the smaller one has the smaller ordinal, or the same one (`Double.Rounds.le_of_le`),
and the nearest doubles are in the same order, infinities included (`Double.IsNearest.le_of_le`).
-/

namespace Reckoner.Double

/-- Whether a double is at most another one. -/
def le : Double → Double → Bool
  | finite s a, finite t b => signedUnits s a ≤ signedUnits t b
  | finite _ _, infinite t => !t
  | infinite s, finite _ _ => s
  | infinite s, infinite t => s || !t
  | _, _ => false

/-! ### Signed magnitudes -/

/-- The number that a sign and an ordinal stand for. -/
def signedMagnitude (negative : Bool) (a : Nat) : ℚ := signedUnits negative a / unitsPerOne

theorem signedMagnitude_true (a : Nat) : signedMagnitude true a = -magnitude a := by
  rw [signedMagnitude, signedUnits, if_pos rfl, Int.cast_neg, Int.cast_natCast, neg_div, magnitude]

theorem signedMagnitude_false (a : Nat) : signedMagnitude false a = magnitude a := by
  rw [signedMagnitude, signedUnits, if_neg Bool.false_ne_true, Int.cast_natCast, magnitude]

/-- **Finite doubles are compared as the numbers that they stand for.** -/
theorem finite_le_finite_iff {s t : Bool} {a b : Fin ordinals} :
    (finite s a).le (finite t b) = true ↔ signedMagnitude s a ≤ signedMagnitude t b := by
  have hpos : (0 : ℚ) < unitsPerOne := by exact_mod_cast unitsPerOne_pos
  rw [le, decide_eq_true_eq, signedMagnitude, signedMagnitude, div_le_div_iff_of_pos_right hpos,
    Int.cast_le]

/-! ### Rounding keeps the order -/

section Order

variable {q r : ℚ} {a b : Nat} {x y : Double}

/-- **Rounding is monotone.** -/
theorem Rounds.le_of_le (ha : Rounds q a) (hb : Rounds r b) (h : q ≤ r) : a ≤ b := by
  by_contra hlt
  rw [not_le, ha.lt_iff b] at hlt
  -- what takes `q` past the ordinal of `r` takes `r` past it as well
  refine Nat.lt_irrefl b ((hb.lt_iff b).mpr ?_)
  rcases hlt with hlt | ⟨heq, hodd⟩
  · exact .inl (by linarith)
  · rcases lt_or_eq_of_le h with hless | rfl
    · exact .inl (by linarith)
    · exact .inr ⟨heq, hodd⟩

/-- Signs come before magnitudes: rounded numbers are in order on both sides of zero. -/
theorem Rounds.signedMagnitude_le (ha : Rounds |q| a) (hb : Rounds |r| b) (h : q ≤ r) :
    signedMagnitude (decide (q < 0)) a ≤ signedMagnitude (decide (r < 0)) b := by
  rcases lt_or_ge q 0 with hq | hq
  · rw [decide_eq_true hq, signedMagnitude_true]
    rcases lt_or_ge r 0 with hr | hr
    · rw [abs_of_neg hq] at ha
      rw [abs_of_neg hr] at hb
      rw [decide_eq_true hr, signedMagnitude_true]
      exact neg_le_neg (strictMono_magnitude.monotone (hb.le_of_le ha (neg_le_neg h)))
    · rw [decide_eq_false (not_lt.mpr hr), signedMagnitude_false]
      exact (neg_nonpos.mpr (magnitude_nonneg a)).trans (magnitude_nonneg b)
  · have hr := hq.trans h
    rw [abs_of_nonneg hq] at ha
    rw [abs_of_nonneg hr] at hb
    rw [decide_eq_false (not_lt.mpr hq), decide_eq_false (not_lt.mpr hr), signedMagnitude_false,
      signedMagnitude_false]
    exact strictMono_magnitude.monotone (ha.le_of_le hb h)

/-- **Nearest doubles are in the order of the numbers**, on both sides of zero and of the overflow
thresholds. -/
theorem IsNearest.le_of_le (hx : IsNearest q x) (hy : IsNearest r y) (h : q ≤ r) :
    x.le y = true := by
  cases x with
  | nan payload => exact absurd rfl (hx.ne_nan payload)
  | finite s a =>
    obtain ⟨rfl, ha⟩ := IsNearest.finite_iff.mp hx
    cases y with
    | nan payload => exact absurd rfl (hy.ne_nan payload)
    | finite t b =>
      obtain ⟨rfl, hb⟩ := IsNearest.finite_iff.mp hy
      exact finite_le_finite_iff.mpr (ha.signedMagnitude_le hb h)
    | infinite t =>
      obtain ⟨rfl, hlarge⟩ := IsNearest.infinite_iff.mp hy
      -- below a negative number that overflows all numbers do
      have hr : ¬r < 0 := fun hr => by
        have hle : |r| ≤ |q| := by
          rw [abs_of_neg hr, abs_of_neg (h.trans_lt hr)]
          exact neg_le_neg h
        cases hx.eq_infinite_iff.mpr (hlarge.trans hle)
      rw [decide_eq_false hr]
      rfl
  | infinite s =>
    obtain ⟨rfl, hlarge⟩ := IsNearest.infinite_iff.mp hx
    rcases lt_or_ge q 0 with hq | hq
    · rw [decide_eq_true hq]
      cases y with
      | nan payload => exact absurd rfl (hy.ne_nan payload)
      | finite => rfl
      | infinite => rfl
    · have hr := hq.trans h
      rw [abs_of_nonneg hq] at hlarge
      have hy' := hy.eq_infinite_iff.mpr (by rw [abs_of_nonneg hr]; exact hlarge.trans h)
      rw [hy', decide_eq_false (not_lt.mpr hq), decide_eq_false (not_lt.mpr hr)]
      rfl

end Order

end Reckoner.Double
