import Mathlib.Algebra.Group.Nat.Defs
import Reckoner.Double.Shortest

/-!
# Rounding to ordinals

What a quotient rounds to depends on its value alone (`Double.nearest_congr`), and every magnitude
rounds to itself (`Double.nearest_units`).
-/

namespace Reckoner.Double

/-! ### Quotients of one value -/

theorem divEven_mul_right (n d : Nat) {m : Nat} (hm : 0 < m) :
    divEven (n * m) (d * m) = divEven n d := by
  have hlt : 2 * (n % d * m) < d * m ↔ 2 * (n % d) < d := by
    rw [← Nat.mul_assoc]
    exact Nat.mul_lt_mul_right hm
  have heq : 2 * (n % d * m) = d * m ↔ 2 * (n % d) = d := by
    rw [← Nat.mul_assoc]
    exact Nat.mul_left_inj (Nat.ne_of_gt hm)
  simp only [divEven, Nat.mul_div_mul_right n d hm, Nat.mul_mod_mul_right, hlt, heq]

theorem divEven_mul_self (n : Nat) {d : Nat} (hd : 0 < d) : divEven (n * d) d = n := by
  simp [divEven, Nat.mul_div_cancel n hd, hd]

theorem nearest_mul_right (n d : Nat) {m : Nat} (hm : 0 < m) :
    nearest (n * m) (d * m) = nearest n d := by
  simp only [nearest, Nat.mul_div_mul_right n d hm]
  rw [Nat.mul_right_comm, divEven_mul_right _ _ hm]

/-- Rounding depends on the value of a quotient alone. -/
theorem nearest_congr {n d n' d' : Nat} (hd : 0 < d) (hd' : 0 < d') (h : n * d' = n' * d) :
    nearest n d = nearest n' d' := by
  calc nearest n d = nearest (n * d') (d * d') := (nearest_mul_right n d hd').symm
    _ = nearest (n' * d) (d' * d) := by rw [h, Nat.mul_comm d]
    _ = nearest n' d' := nearest_mul_right n' d' hd

/-! ### Magnitudes -/

/-- From the second exponent field on, a magnitude is a significand with `k` doublings. -/
theorem nearest_significand {m : Nat} (k : Nat) (hm : significands ≤ m)
    (hm' : m < 2 * significands) : nearest (m * 2 ^ k) 1 = k * significands + m := by
  have hlog : (m * 2 ^ k).log2 = 52 + k := by
    have hpos : 0 < 2 ^ k := Nat.two_pow_pos k
    rw [Nat.log2_eq_iff (Nat.ne_of_gt (Nat.mul_pos (by omega) hpos)), Nat.pow_add,
      show 52 + k + 1 = 53 + k by omega, Nat.pow_add]
    exact ⟨Nat.mul_le_mul_right _ hm, Nat.mul_lt_mul_of_pos_right hm' hpos⟩
  rw [nearest, Nat.div_one, hlog, Nat.add_sub_cancel_left, Nat.one_mul, Nat.pow_eq,
    divEven_mul_self m (Nat.two_pow_pos k)]

/-- Below that, units are counted one by one. -/
theorem nearest_one_of_lt {n : Nat} (h : n < 2 * significands) : nearest n 1 = n := by
  have hlog : n.log2 - 52 = 0 := by
    rcases Nat.eq_zero_or_pos n with rfl | hn
    · rfl
    · have hlt : n.log2 < 53 := (Nat.log2_lt (Nat.ne_of_gt hn)).mpr h
      omega
  simp [nearest, divEven, Nat.mod_one, hlog]

/-- **Every magnitude rounds to itself.** -/
theorem nearest_units (a : Nat) : nearest (units a) 1 = a := by
  have hdiv := Nat.div_add_mod a significands
  have hmod : a % significands < significands := Nat.mod_lt _ (by decide)
  cases hk : a / significands - 1 with
  | zero =>
    have ha : a < 2 * significands := by
      have hle : a / significands ≤ 1 := by omega
      have := Nat.mul_le_mul_left significands hle
      omega
    rw [units, hk]
    simpa using nearest_one_of_lt ha
  | succ k =>
    have hfield : a / significands = k + 2 := by omega
    have hsplit : significands * (k + 2) = (k + 1) * significands + significands := by
      rw [Nat.mul_comm, Nat.add_mul (k + 1) 1, Nat.one_mul]
    rw [hfield, hsplit] at hdiv
    have hm : a - (k + 1) * significands = significands + a % significands := by omega
    rw [units, hk, hm, Nat.pow_eq, nearest_significand (k + 1) (by omega) (by omega),
      ← Nat.add_assoc]
    exact hdiv

/-- A magnitude of the first `n + 2` exponent fields has fewer than `2 ^ (53 + n)` units. -/
theorem units_lt {a n : Nat} (ha : a / significands < n + 2) : units a < 2 ^ (53 + n) := by
  have hm : a - (a / significands - 1) * significands < 2 ^ 53 := by
    have hmod : a % significands < significands := Nat.mod_lt _ (by decide)
    have hdiv : a / significands * significands + a % significands = a := by
      rw [Nat.mul_comm]
      exact Nat.div_add_mod a significands
    have htwo : 2 ^ 53 = significands + significands := rfl
    rw [Nat.sub_mul, htwo]
    omega
  have hpow : 2 ^ (a / significands - 1) ≤ 2 ^ n := Nat.pow_le_pow_right (by decide) (by omega)
  calc units a < 2 ^ 53 * 2 ^ (a / significands - 1) :=
        Nat.mul_lt_mul_of_pos_right hm (Nat.two_pow_pos _)
    _ ≤ 2 ^ 53 * 2 ^ n := Nat.mul_le_mul_left _ hpow
    _ = 2 ^ (53 + n) := (Nat.pow_add 2 53 n).symm

/-- Only the ordinal zero has no units. -/
theorem units_pos {a : Nat} (ha : 0 < a) : 0 < units a := by
  refine Nat.pos_of_ne_zero fun hu => ?_
  have h := nearest_units a
  rw [hu, nearest_one_of_lt (by decide)] at h
  omega

end Reckoner.Double
