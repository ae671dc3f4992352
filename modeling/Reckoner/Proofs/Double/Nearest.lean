import Mathlib.Algebra.Order.Field.Basic
import Mathlib.Algebra.Order.Field.Rat
import Mathlib.Algebra.Order.Ring.Abs
import Mathlib.Algebra.Ring.Parity
import Mathlib.Order.Monotone.Basic
import Mathlib.Tactic.FieldSimp
import Mathlib.Tactic.Linarith
import Mathlib.Tactic.NormNum
import Mathlib.Tactic.Ring
import Reckoner.Proofs.Double.Integer

/-!
# Rounding is to nearest

What an ordinal stands for is a rational number (`Double.magnitude`). An ordinal *rounds* a number
when every other ordinal is farther from it, or as far while the ordinal itself is even
(`Double.Rounds`). This fixes the ordinal (`Double.Rounds.unique`), and `Double.nearest` finds it
(`Double.rounds_nearest`).

* The grid of an exponent field is where a quotient is rounded as an integer is: the rounded
  quotient is off by a half at most (`Double.divEven_within`). Magnitudes below the grid are farther
  than its first one (`Double.nearest_closer`).
* Ordinals go on past the last one, as if there were no bound on exponents, and all of those are an
  infinity to a double. A number overflows from the midpoint of the largest double and the next
  power of two on (`Double.Rounds.ordinals_le_iff`), and vanishes up to half of the least magnitude
  (`Double.Rounds.eq_zero_iff`).
* So a double that is nearest to a number is known by its own sign and ordinal
  (`Double.IsNearest.finite_iff`, `Double.IsNearest.infinite_iff`), and it is no NaN.
-/

namespace Reckoner.Double

/-! ### Magnitudes in order -/

/-- A magnitude is a significand with `k` doublings. Twice the least significand is the least one
with one more doubling. -/
theorem units_mul_add {k m : Nat} (hm : m ≤ 2 * significands) (hk : k = 0 ∨ significands ≤ m) :
    units (k * significands + m) = m * 2 ^ k := by
  rcases Nat.lt_or_ge m significands with hsmall | hlarge
  · obtain rfl : k = 0 := hk.resolve_right (Nat.not_le.mpr hsmall)
    simp [units, Nat.div_eq_of_lt hsmall]
  · rcases Nat.lt_or_eq_of_le hm with hlt | rfl
    · have hfield : (k * significands + m) / significands - 1 = k := by
        unfold significands at *
        omega
      rw [units, hfield, Nat.add_sub_cancel_left, Nat.pow_eq]
    · have hfield : (k * significands + 2 * significands) / significands - 1 = k + 1 := by
        unfold significands
        omega
      have hrest : k * significands + 2 * significands - (k + 1) * significands = significands := by
        unfold significands
        omega
      rw [units, hfield, hrest, Nat.pow_eq, Nat.pow_succ]
      ac_rfl

/-- Every ordinal has an exponent field and a significand. -/
theorem exists_significand (a : Nat) : ∃ k m, a = k * significands + m ∧ m < 2 * significands ∧
    (k = 0 ∨ significands ≤ m) := by
  refine ⟨a / significands - 1, a - (a / significands - 1) * significands, ?_, ?_, ?_⟩
  all_goals
    unfold significands
    omega

theorem units_lt_units_succ (a : Nat) : units a < units (a + 1) := by
  obtain ⟨k, m, rfl, hm, hk⟩ := exists_significand a
  rw [Nat.add_assoc, units_mul_add (Nat.le_of_lt hm) hk,
    units_mul_add hm (hk.imp_right Nat.le_succ_of_le)]
  exact Nat.mul_lt_mul_of_pos_right (Nat.lt_succ_self m) (Nat.two_pow_pos k)

theorem strictMono_units : StrictMono units := strictMono_nat_of_lt_succ units_lt_units_succ

/-- From an exponent field on, units come in multiples of its spacing. -/
theorem exists_units_eq_mul {a k : Nat} (ha : k = 0 ∨ (k + 1) * significands ≤ a) :
    ∃ m, units a = m * 2 ^ k := by
  obtain ⟨j, m, rfl, hm, hj⟩ := exists_significand a
  have hkj : k ≤ j := by
    unfold significands at *
    omega
  refine ⟨m * 2 ^ (j - k), ?_⟩
  rw [units_mul_add (Nat.le_of_lt hm) hj, Nat.mul_assoc, ← Nat.pow_add, Nat.sub_add_cancel hkj]

/-! ### Quotients -/

theorem divEven_le_succ (n d : Nat) : divEven n d ≤ n / d + 1 := by
  unfold divEven
  dsimp only
  split <;> omega

/-- A rounded quotient is off by less than half of one, or by a half and is even. -/
theorem divEven_within {n d : Nat} (hd : 0 < d) :
    2 * |(n - divEven n d * d : ℤ)| < d ∨
      2 * |(n - divEven n d * d : ℤ)| = d ∧ Even (divEven n d) := by
  have hn : (n : ℤ) = (n / d : ℕ) * d + (n % d : ℕ) := by
    exact_mod_cast (Nat.div_add_mod' n d).symm
  have hr : n % d < d := Nat.mod_lt n hd
  rw [hn, Nat.even_iff]
  unfold divEven
  generalize n / d = q
  generalize n % d = r at hr ⊢
  dsimp only
  split
  · next hdown =>
    have habs : |(q * d + r - q * d : ℤ)| = r := by
      rw [add_sub_cancel_left, abs_of_nonneg (by omega)]
    simp only [Bool.or_eq_true, Bool.and_eq_true, decide_eq_true_eq] at hdown
    rw [habs]
    omega
  · next hup =>
    have habs : |(q * d + r - (q + 1 : ℕ) * d : ℤ)| = d - r := by
      rw [show (q * d + r - (q + 1 : ℕ) * d : ℤ) = r - d by push_cast; ring,
        abs_of_nonpos (by omega), neg_sub]
    simp only [Bool.or_eq_true, Bool.and_eq_true, decide_eq_true_eq] at hup
    rw [habs]
    omega

/-- Every other multiple of `d` is farther from `n` than the rounded quotient, or as far, and then
the rounded quotient is even. -/
theorem divEven_closer {n d m : Nat} (hd : 0 < d) (hm : m ≠ divEven n d) :
    |(n - divEven n d * d : ℤ)| < |(n - m * d : ℤ)| ∨
      |(n - divEven n d * d : ℤ)| = |(n - m * d : ℤ)| ∧ Even (divEven n d) := by
  have hwithin := divEven_within (n := n) hd
  generalize divEven n d = q at hm hwithin ⊢
  have hapart : (d : ℤ) ≤ |(n - q * d : ℤ)| + |(n - m * d : ℤ)| := by
    have hone : (1 : ℤ) ≤ |(m - q : ℤ)| := Int.one_le_abs (by omega)
    calc (d : ℤ) ≤ |(m - q : ℤ)| * |(d : ℤ)| := by
          rw [Nat.abs_cast]
          exact le_mul_of_one_le_left (by omega) hone
      _ = |((n - q * d) - (n - m * d) : ℤ)| := by
          rw [← abs_mul]
          congr 1
          ring
      _ ≤ |(n - q * d : ℤ)| + |(n - m * d : ℤ)| := abs_sub _ _
  rcases hwithin with h | ⟨h, heven⟩
  · exact .inl (by omega)
  · rcases lt_or_eq_of_le (show |(n - q * d : ℤ)| ≤ |(n - m * d : ℤ)| by omega) with hlt | heq
    · exact .inl hlt
    · exact .inr ⟨heq, heven⟩

/-- A quotient is rounded on the grid of the exponent field that it lies in. -/
theorem exists_nearest_eq {n d : Nat} (hd : 0 < d) : ∃ k,
    nearest n d = k * significands + divEven n (d * 2 ^ k) ∧
      divEven n (d * 2 ^ k) ≤ 2 * significands ∧
      (k = 0 ∨ significands ≤ divEven n (d * 2 ^ k) ∧ significands * 2 ^ k * d ≤ n) := by
  refine ⟨(n / d).log2 - 52, rfl, ?_, ?_⟩
  · have hlt : n / (d * 2 ^ ((n / d).log2 - 52)) < 2 * significands := by
      rw [← Nat.div_div_eq_div_mul, Nat.div_lt_iff_lt_mul (Nat.two_pow_pos _)]
      calc n / d < 2 ^ ((n / d).log2 + 1) := Nat.lt_log2_self
        _ ≤ 2 ^ (53 + ((n / d).log2 - 52)) := Nat.pow_le_pow_right (by decide) (by omega)
        _ = 2 * significands * 2 ^ ((n / d).log2 - 52) := Nat.pow_add 2 53 _
    exact Nat.le_trans (divEven_le_succ n _) hlt
  · refine (Nat.eq_zero_or_pos _).imp_right fun hk => ?_
    have hlog : (n / d).log2 = 52 + ((n / d).log2 - 52) := by omega
    have hne : n / d ≠ 0 := by
      intro hzero
      rw [hzero] at hk
      cases hk
    have hle : significands * 2 ^ ((n / d).log2 - 52) ≤ n / d :=
      calc significands * 2 ^ ((n / d).log2 - 52) = 2 ^ (n / d).log2 := by
            conv_rhs => rw [hlog]
            exact (Nat.pow_add 2 52 _).symm
        _ ≤ n / d := Nat.log2_self_le hne
    rw [Nat.le_div_iff_mul_le hd] at hle
    refine ⟨Nat.le_trans ?_ (div_le_divEven n _), hle⟩
    rw [Nat.le_div_iff_mul_le (Nat.mul_pos hd (Nat.two_pow_pos _))]
    calc significands * (d * 2 ^ ((n / d).log2 - 52))
        = significands * 2 ^ ((n / d).log2 - 52) * d := by ac_rfl
      _ ≤ n := hle

/-- **Every other ordinal is farther from the quotient than the nearest one**, or as far, and then
the nearest one is even. -/
theorem nearest_closer {n d b : Nat} (hd : 0 < d) (hb : b ≠ nearest n d) :
    |(n - units (nearest n d) * d : ℤ)| < |(n - units b * d : ℤ)| ∨
      |(n - units (nearest n d) * d : ℤ)| = |(n - units b * d : ℤ)| ∧ Even (nearest n d) := by
  obtain ⟨k, hnearest, hhigh, hlow⟩ := exists_nearest_eq (n := n) hd
  have hpos : 0 < d * 2 ^ k := Nat.mul_pos hd (Nat.two_pow_pos k)
  have hunits : units (nearest n d) = divEven n (d * 2 ^ k) * 2 ^ k := by
    rw [hnearest]
    exact units_mul_add hhigh (hlow.imp_right And.left)
  have hscale : ∀ m : ℕ, ((m * 2 ^ k : ℕ) * d : ℤ) = m * (d * 2 ^ k : ℕ) := by
    intro m
    push_cast
    ring
  have hparity : Even (nearest n d) ↔ Even (divEven n (d * 2 ^ k)) := by
    have hsignificands : Even (k * significands) := (by decide : Even significands).mul_left k
    simp only [hnearest, Nat.even_add, hsignificands, true_iff]
  by_cases hgrid : k = 0 ∨ (k + 1) * significands ≤ b
  · obtain ⟨m, hm⟩ := exists_units_eq_mul hgrid
    have hne : m ≠ divEven n (d * 2 ^ k) := by
      rintro rfl
      exact hb (strictMono_units.injective (hm.trans hunits.symm))
    rw [hparity, hunits, hm, hscale, hscale]
    exact divEven_closer hpos hne
  -- below the grid magnitudes are farther than the first one on it, which is no nearer
  · obtain ⟨hk, hbelow⟩ := not_or.mp hgrid
    have hfirst : units b < significands * 2 ^ k := by
      rw [← units_mul_add (by decide) (.inr (Nat.le_refl _)), ← Nat.succ_mul]
      exact strictMono_units (Nat.not_le.mp hbelow)
    have hle : (significands * (d * 2 ^ k : ℕ) : ℤ) ≤ n := by
      rw [← hscale]
      exact_mod_cast (hlow.resolve_left hk).2
    have hlt : (units b * d : ℤ) < significands * (d * 2 ^ k : ℕ) := by
      rw [← hscale]
      exact_mod_cast Nat.mul_lt_mul_of_pos_right hfirst hd
    have hclose : |(n - divEven n (d * 2 ^ k) * (d * 2 ^ k : ℕ) : ℤ)| ≤
        |(n - significands * (d * 2 ^ k : ℕ) : ℤ)| := by
      by_cases hne : significands = divEven n (d * 2 ^ k)
      · rw [← hne]
      · exact (divEven_closer hpos hne).elim le_of_lt fun h => le_of_eq h.1
    rw [abs_of_nonneg (sub_nonneg.mpr hle)] at hclose
    left
    rw [hunits, hscale, abs_of_nonneg (sub_nonneg.mpr (le_trans (le_of_lt hlt) hle))]
    omega

/-! ### Nearest magnitudes -/

/-- The number that an ordinal stands for. The ordinals go on past the last magnitude, as if there
were no bound on exponents. -/
def magnitude (a : Nat) : ℚ := units a / unitsPerOne

/-- An ordinal **rounds** a number when every other ordinal stands for a number farther from it, or
as far, and then it is even itself. -/
def Rounds (q : ℚ) (a : Nat) : Prop :=
  ∀ b, b ≠ a → |q - magnitude a| < |q - magnitude b| ∨
    |q - magnitude a| = |q - magnitude b| ∧ Even a

theorem unitsPerOne_eq : unitsPerOne = 2 ^ 1074 := by decide +kernel

theorem unitsPerOne_pos : 0 < unitsPerOne := by decide +kernel

theorem strictMono_magnitude : StrictMono magnitude := fun a b h =>
  div_lt_div_of_pos_right (by exact_mod_cast strictMono_units h) (by exact_mod_cast unitsPerOne_pos)

theorem magnitude_zero : magnitude 0 = 0 := by
  have hunits : units 0 = 0 := by decide
  rw [magnitude, hunits, Nat.cast_zero, zero_div]

theorem magnitude_pos {a : Nat} (ha : 0 < a) : 0 < magnitude a := by
  have h := strictMono_magnitude ha
  rwa [magnitude_zero] at h

theorem magnitude_nonneg (a : Nat) : 0 ≤ magnitude a :=
  magnitude_zero.symm.trans_le (strictMono_magnitude.monotone a.zero_le)

/-- The least positive magnitude is one unit. -/
theorem magnitude_one : magnitude 1 = 1 / unitsPerOne := by
  have hunits : units 1 = 1 := by decide
  rw [magnitude, hunits, Nat.cast_one]

/-- **Quotients of units are rounded to nearest**, ties to even. -/
theorem rounds_nearest (n : Nat) {d : Nat} (hd : 0 < d) :
    Rounds (n / (d * unitsPerOne)) (nearest n d) := by
  have hpos : (0 : ℚ) < d * unitsPerOne := by
    exact_mod_cast Nat.mul_pos hd unitsPerOne_pos
  have hdistance : ∀ a, |(n / (d * unitsPerOne) - magnitude a : ℚ)| =
      (|(n - units a * d : ℤ)| : ℤ) / (d * unitsPerOne) := by
    intro a
    have hw : (unitsPerOne : ℚ) ≠ 0 := by exact_mod_cast unitsPerOne_pos.ne'
    have hd' : (d : ℚ) ≠ 0 := by exact_mod_cast hd.ne'
    have hdiff : (n / (d * unitsPerOne) - magnitude a : ℚ) =
        (n - units a * d : ℤ) / (d * unitsPerOne) := by
      unfold magnitude
      push_cast
      field_simp
    rw [hdiff, abs_div, abs_of_pos hpos, Int.cast_abs]
  intro b hb
  rw [hdistance, hdistance, div_lt_div_iff_of_pos_right hpos, div_left_inj' hpos.ne']
  exact_mod_cast nearest_closer hd hb

/-- **Quotients are rounded to nearest** when they are written in units. -/
theorem rounds_nearest_mul (n : Nat) {d : Nat} (hd : 0 < d) :
    Rounds (n / d) (nearest (n * unitsPerOne) d) := by
  have hw : (unitsPerOne : ℚ) ≠ 0 := by exact_mod_cast unitsPerOne_pos.ne'
  have hrounds := rounds_nearest (n * unitsPerOne) hd
  rwa [Nat.cast_mul, mul_div_mul_right _ _ hw] at hrounds

/-- Every number is rounded to some ordinal. -/
theorem exists_rounds {q : ℚ} (hq : 0 ≤ q) : ∃ a, Rounds q a := by
  have hrounds := rounds_nearest_mul q.num.natAbs q.den_pos
  rw [Nat.cast_natAbs, abs_of_nonneg (Rat.num_nonneg.mpr hq), Rat.num_div_den] at hrounds
  exact ⟨_, hrounds⟩

/-! ### Midpoints -/

section Midpoint

variable {q x y : ℚ}

/-- Which of two numbers is nearer depends on the side of their midpoint. -/
theorem abs_sub_lt_left_iff (h : x < y) : |q - x| < |q - y| ↔ 2 * q < x + y := by
  refine ⟨fun hlt => ?_, fun hlt => ?_⟩
  · by_contra hle
    have habs : |q - y| ≤ |q - x| := by
      rw [abs_of_pos (show 0 < q - x by linarith)]
      exact abs_le.mpr ⟨by linarith, by linarith⟩
    exact absurd hlt (not_lt.mpr habs)
  · rw [abs_of_neg (show q - y < 0 by linarith)]
    exact abs_lt.mpr ⟨by linarith, by linarith⟩

theorem abs_sub_lt_right_iff (h : x < y) : |q - y| < |q - x| ↔ x + y < 2 * q := by
  have hneg := abs_sub_lt_left_iff (q := -q) (neg_lt_neg h)
  rw [neg_sub_neg, neg_sub_neg, abs_sub_comm, abs_sub_comm x] at hneg
  rw [hneg]
  constructor <;> intro h <;> linarith

theorem abs_sub_eq_iff (h : x < y) : |q - x| = |q - y| ↔ 2 * q = x + y := by
  rw [eq_iff_le_not_lt, eq_iff_le_not_lt, ← not_lt, ← not_lt, abs_sub_lt_left_iff h,
    abs_sub_lt_right_iff h]

end Midpoint

namespace Rounds

variable {q : ℚ} {a b : Nat}

/-- **A rounded number is past an ordinal** when it lies behind the midpoint of that ordinal and the
next one, or at the midpoint, if the ordinal is odd. -/
theorem lt_iff (h : Rounds q a) (b : Nat) :
    b < a ↔ magnitude b + magnitude (b + 1) < 2 * q ∨
      magnitude b + magnitude (b + 1) = 2 * q ∧ Odd b := by
  rcases Nat.lt_or_ge b a with hb | hb
  · have hnext : magnitude (b + 1) ≤ magnitude a := strictMono_magnitude.monotone hb
    have hlt := strictMono_magnitude hb
    refine iff_of_true hb ?_
    rcases h b (Nat.ne_of_lt hb) with hnear | ⟨heq, heven⟩
    · rw [abs_sub_lt_right_iff hlt] at hnear
      exact .inl (by linarith)
    · rw [eq_comm, abs_sub_eq_iff hlt] at heq
      rcases lt_or_eq_of_le hnext with hless | hsame
      · exact .inl (by linarith)
      · obtain rfl := strictMono_magnitude.injective hsame
        exact .inr ⟨by linarith, by simpa [Nat.even_add_one] using heven⟩
  · have hlt : magnitude a < magnitude (b + 1) := strictMono_magnitude (Nat.lt_succ_of_le hb)
    have hle : magnitude a ≤ magnitude b := strictMono_magnitude.monotone hb
    refine iff_of_false (Nat.not_lt.mpr hb) ?_
    rcases h (b + 1) (by omega) with hnear | ⟨heq, heven⟩
    · rw [abs_sub_lt_left_iff hlt] at hnear
      rintro (h | ⟨h, -⟩) <;> linarith
    · rw [abs_sub_eq_iff hlt] at heq
      rintro (h | ⟨h, hodd⟩)
      · linarith
      · obtain rfl : a = b := strictMono_magnitude.injective (by linarith)
        exact absurd heven (Nat.not_even_iff_odd.mpr hodd)

/-- **A number is rounded to one ordinal.** -/
theorem unique (ha : Rounds q a) (hb : Rounds q b) : a = b :=
  eq_of_forall_lt_iff fun c => (ha.lt_iff c).trans (hb.lt_iff c).symm

/-- **Underflow.** A number is rounded to zero up to half of the least positive magnitude. -/
theorem eq_zero_iff (h : Rounds q a) : a = 0 ↔ q ≤ magnitude 1 / 2 := by
  have hlt := h.lt_iff 0
  rw [magnitude_zero, zero_add, zero_add, or_iff_left (by simp), Nat.pos_iff_ne_zero] at hlt
  rw [← not_iff_not, ← Ne, hlt, not_le, div_lt_iff₀ two_pos, mul_comm q]

/-- Magnitudes with a spacing of one or more are whole numbers. -/
private theorem magnitude_mul_add {k m n : Nat} (hn : unitsPerOne = 2 ^ n)
    (hm : m ≤ 2 * significands) (hk : significands ≤ m) :
    magnitude ((k + n) * significands + m) = m * 2 ^ k := by
  have hpos : (2 : ℚ) ^ n ≠ 0 := pow_ne_zero n two_ne_zero
  rw [magnitude, units_mul_add hm (.inr hk), hn, pow_add]
  push_cast
  field_simp

/-- **Overflow.** A number is rounded past the last ordinal from the midpoint of the largest double
and the next power of two on. -/
theorem ordinals_le_iff (h : Rounds q a) : ordinals ≤ a ↔ 2 ^ 1024 - 2 ^ 970 ≤ q := by
  have hlast : magnitude ((971 + 1074) * significands + (2 * significands - 1)) =
      (2 * significands - 1 : ℕ) * 2 ^ 971 :=
    magnitude_mul_add unitsPerOne_eq (by decide) (by decide)
  have hnext : magnitude ((971 + 1074) * significands + 2 * significands) =
      (2 * significands : ℕ) * 2 ^ 971 :=
    magnitude_mul_add unitsPerOne_eq (by decide) (by decide)
  have hodd : Odd ((971 + 1074) * significands + (2 * significands - 1)) := by decide
  have hsucc : (971 + 1074) * significands + (2 * significands - 1) + 1 =
      (971 + 1074) * significands + 2 * significands := by decide
  have hlt := h.lt_iff ((971 + 1074) * significands + (2 * significands - 1))
  rw [hsucc, hlast, hnext, and_iff_left hodd, ← le_iff_lt_or_eq] at hlt
  have hpow : (2 : ℚ) ^ 1024 = 2 ^ 970 * 2 ^ 54 := pow_add 2 970 54
  have hpow' : (2 : ℚ) ^ 971 = 2 ^ 970 * 2 := pow_succ 2 970
  have hodd' : ((2 * significands - 1 : ℕ) : ℚ) = 2 ^ 53 - 1 := by norm_num
  have heven : ((2 * significands : ℕ) : ℚ) = 2 ^ 53 := by norm_num
  refine Iff.trans hlt ?_
  rw [hpow, hpow', hodd', heven]
  generalize (2 : ℚ) ^ 970 = p
  constructor <;> intro h <;> linarith

end Rounds

/-! ### Nearest doubles -/

/-- A double is **nearest** to a number when it has the sign of the number and the ordinal that
rounds its absolute value, and is an infinity if that ordinal is past the last one. -/
def IsNearest (q : ℚ) (x : Double) : Prop := ∃ a, Rounds |q| a ∧ x = ofOrdinal (decide (q < 0)) a

namespace IsNearest

variable {q : ℚ} {x y : Double}

/-- **One double is nearest to a number.** -/
theorem unique (hx : IsNearest q x) (hy : IsNearest q y) : x = y := by
  obtain ⟨a, ha, rfl⟩ := hx
  obtain ⟨b, hb, rfl⟩ := hy
  rw [ha.unique hb]

/-- **A finite double is nearest to a number** when it has the sign of the number and its ordinal
rounds the absolute value. -/
theorem finite_iff {negative : Bool} {a : Fin ordinals} :
    IsNearest q (finite negative a) ↔ negative = decide (q < 0) ∧ Rounds |q| a := by
  constructor
  · rintro ⟨b, hb, hfinite⟩
    obtain ⟨rfl, rfl⟩ := ofOrdinal_eq_finite_iff.mp hfinite.symm
    exact ⟨rfl, hb⟩
  · rintro ⟨rfl, ha⟩
    exact ⟨a, ha, (ofOrdinal_fin _ a).symm⟩

/-- **An infinity is nearest to a number** when it has the sign of the number and the absolute value
is not below the midpoint of the largest double and the next power of two. -/
theorem infinite_iff {negative : Bool} :
    IsNearest q (infinite negative) ↔ negative = decide (q < 0) ∧ 2 ^ 1024 - 2 ^ 970 ≤ |q| := by
  constructor
  · rintro ⟨a, ha, hinfinite⟩
    obtain ⟨rfl, hle⟩ := ofOrdinal_eq_infinite_iff.mp hinfinite.symm
    exact ⟨rfl, ha.ordinals_le_iff.mp hle⟩
  · rintro ⟨rfl, hle⟩
    obtain ⟨a, ha⟩ := exists_rounds (abs_nonneg q)
    exact ⟨a, ha, (ofOrdinal_of_le (ha.ordinals_le_iff.mpr hle)).symm⟩

/-- A NaN is nearest to no number. -/
theorem ne_nan (h : IsNearest q x) (payload : Nat) : x ≠ nan payload := by
  obtain ⟨a, -, rfl⟩ := h
  exact ofOrdinal_ne_nan _ a payload

/-- **Overflow** starts at the midpoint of the largest double and the next power of two. -/
theorem eq_infinite_iff (h : IsNearest q x) :
    x = infinite (decide (q < 0)) ↔ 2 ^ 1024 - 2 ^ 970 ≤ |q| := by
  constructor
  · rintro rfl
    exact (infinite_iff.mp h).2
  · intro hle
    exact h.unique (infinite_iff.mpr ⟨rfl, hle⟩)

/-- **Underflow** ends at the midpoint of zero and the least positive double. -/
theorem eq_zero_iff (h : IsNearest q x) :
    x = zero (decide (q < 0)) ↔ |q| ≤ magnitude 1 / 2 := by
  constructor
  · rintro rfl
    exact (finite_iff.mp h).2.eq_zero_iff.mp rfl
  · intro hle
    obtain ⟨a, ha⟩ := exists_rounds (abs_nonneg q)
    obtain rfl := ha.eq_zero_iff.mpr hle
    exact h.unique (finite_iff.mpr ⟨rfl, ha⟩)

end IsNearest

end Reckoner.Double
