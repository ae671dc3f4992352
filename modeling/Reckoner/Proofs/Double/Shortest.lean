import Mathlib.Algebra.Order.Group.Pointwise.Interval
import Reckoner.Proofs.Double.Order
import Reckoner.Proofs.Double.Reading

/-!
# The shortest decimal is the shortest

The search for a short decimal (`Double.shortest`) looks at two decimals for each number of digits,
the neighbours of the magnitude, and stops at the first one that is read back. Nothing is lost by
that:

* Rounding is monotone, so what lies between a magnitude and a number that rounds to it rounds to
  it, too. If any multiple of a power of ten rounds to the magnitude, a neighbour does
  (`Double.isSome_neighbour`).
* So does a multiple of the power that goes with `n` digits if any number of at most `n` digits does
  (`Double.exists_multiple`).
* Seventeen digits always suffice, since the gap around a magnitude is never too small
  (`Double.exists_rounds_seventeen`). So the search never comes back with nothing.

Main statement: of the numbers that round to a magnitude, the decimal that is found has the fewest
digits, and of those it is the nearest (`Double.isShortest_shortest`).
-/

namespace Reckoner

/-- A number **fits in** `n` digits when it is a whole number of at most `n` digits, times a power
of ten. -/
def FitsIn (n : Nat) (q : ℚ) : Prop := ∃ (c : Nat) (k : ℤ), c < 10 ^ n ∧ q = c * 10 ^ k

theorem FitsIn.mono {m n : Nat} {q : ℚ} (h : FitsIn m q) (hmn : m ≤ n) : FitsIn n q := by
  obtain ⟨c, k, hc, hq⟩ := h
  exact ⟨c, k, Nat.lt_of_lt_of_le hc (Nat.pow_le_pow_right (by decide) hmn), hq⟩

/-- A power of ten as a multiple of a smaller one. -/
theorem pow_mul_zpow_sub (n : Nat) (k : ℤ) : ((10 ^ n : ℕ) : ℚ) * 10 ^ (k - n) = 10 ^ k := by
  rw [Nat.cast_pow, Nat.cast_ofNat, ← zpow_natCast, ← zpow_add₀ (by norm_num), add_sub_cancel]

/-- Up to a power of ten, which has a single digit that counts, a coefficient fits in its digits. -/
theorem Decimal.fitsIn_of_le {d : Decimal} {n : Nat} (h : d.coefficient ≤ 10 ^ (n + 1)) :
    FitsIn (n + 1) d.rational := by
  rcases Nat.lt_or_eq_of_le h with hlt | heq
  · exact ⟨d.coefficient, d.exponent, hlt, rfl⟩
  · refine ⟨1, n + 1 + d.exponent, Nat.one_lt_pow (Nat.succ_ne_zero n) (by decide), ?_⟩
    rw [rational, heq, zpow_add₀ (by norm_num), Nat.cast_one, one_mul]
    norm_cast

/-! ### Decimals that round to an ordinal -/

namespace Double

/-- An ordinal rounds the number that it stands for. -/
theorem rounds_magnitude (a : Nat) : Rounds (magnitude a) a := by
  have h := rounds_nearest (units a) Nat.one_pos
  rwa [nearest_units, Nat.cast_one, one_mul] at h

end Double

namespace Decimal

variable {d : Decimal} {a : Nat} {q : ℚ}

/-- **A decimal is read as the ordinal that rounds it**, unless it overflows. -/
theorem nearest_eq_iff (ha : a < Double.ordinals) : d.nearest = a ↔ Double.Rounds d.rational a := by
  have hnearest := d.isNearest_toDouble
  have hread : d.nearest = a ↔ d.toDouble false = .finite false ⟨a, ha⟩ := by
    rw [toDouble, Double.ofOrdinal_eq_finite_iff, and_iff_right rfl]
  have hrounds : Double.IsNearest d.rational (.finite false ⟨a, ha⟩) ↔
      Double.Rounds d.rational a := by
    rw [Double.IsNearest.finite_iff, decide_eq_false (not_lt.mpr d.rational_nonneg),
      abs_of_nonneg d.rational_nonneg, and_iff_right rfl]
  rw [hread, ← hrounds]
  exact ⟨fun h => h ▸ hnearest, hnearest.unique⟩

/-- What lies between the midpoints to both sides of a magnitude rounds to it. -/
theorem rounds_of_lt_of_lt (hlow : Double.magnitude a + Double.magnitude (a + 1) < 2 * d.rational)
    (hhigh : 2 * d.rational < Double.magnitude (a + 1) + Double.magnitude (a + 2)) :
    Double.Rounds d.rational (a + 1) := by
  obtain ⟨b, hb⟩ := Double.exists_rounds d.rational_nonneg
  have hab : a < b := (hb.lt_iff a).mpr (.inl hlow)
  have hba : ¬ a + 1 < b := by
    rw [hb.lt_iff (a + 1), not_or]
    exact ⟨not_lt.mpr hhigh.le, fun heq => absurd heq.1 (ne_of_gt hhigh)⟩
  obtain rfl : b = a + 1 := by omega
  exact hb

/-- What lies between a magnitude and a number that rounds to it rounds to it. -/
theorem rounds_of_mem_uIcc (hq : Double.Rounds q a)
    (h : d.rational ∈ Set.uIcc q (Double.magnitude a)) : Double.Rounds d.rational a := by
  have hmagnitude := Double.rounds_magnitude a
  obtain ⟨b, hb⟩ := Double.exists_rounds d.rational_nonneg
  obtain rfl : b = a := by
    rcases Set.mem_uIcc.mp h with ⟨hlow, hhigh⟩ | ⟨hlow, hhigh⟩
    · exact Nat.le_antisymm (hb.le_of_le hmagnitude hhigh) (hq.le_of_le hb hlow)
    · exact Nat.le_antisymm (hb.le_of_le hq hhigh) (hmagnitude.le_of_le hb hlow)
  exact hb

theorem nearest_of_mem_uIcc (ha : a < Double.ordinals) (hq : Double.Rounds q a)
    (h : d.rational ∈ Set.uIcc q (Double.magnitude a)) : d.nearest = a :=
  (nearest_eq_iff ha).mpr (rounds_of_mem_uIcc hq h)

end Decimal

namespace Double

variable {a : Nat} {k : ℤ}

/-! ### Neighbours on a grid -/

/-- The quotient of a magnitude by a power of ten, as it is computed. -/
theorem magnitude_div_pow (a : Nat) (k : ℤ) :
    magnitude a / 10 ^ k =
      ((units a * Nat.pow 10 (-k).toNat : ℕ) : ℚ) / (unitsPerOne * Nat.pow 10 k.toNat : ℕ) := by
  have hexp : k = k.toNat - (-k).toNat := by omega
  have hten : (10 : ℚ) ^ k = 10 ^ k.toNat / 10 ^ (-k).toNat := by
    conv_lhs => rw [hexp]
    rw [zpow_sub₀ (by norm_num), zpow_natCast, zpow_natCast]
  rw [magnitude, hten, div_div_div_eq, Nat.pow_eq, Nat.pow_eq, Nat.cast_mul, Nat.cast_mul,
    Nat.cast_pow, Nat.cast_pow, Nat.cast_ofNat]

/-- No whole number is nearer to a quotient than the one that it is rounded to. -/
theorem abs_div_sub_divEven_le (n : Nat) {d : Nat} (hd : 0 < d) (c : Nat) :
    |(n : ℚ) / d - divEven n d| ≤ |(n : ℚ) / d - c| := by
  have hpos : (0 : ℚ) < d := by exact_mod_cast hd
  have hdistance : ∀ m : Nat, |(n : ℚ) / d - m| = (|(n - m * d : ℤ)| : ℤ) / d := by
    intro m
    have hdiff : (n : ℚ) / d - m = (n - m * d : ℤ) / d := by
      push_cast
      field_simp
    rw [hdiff, abs_div, abs_of_pos hpos, Int.cast_abs]
  rw [hdistance, hdistance]
  refine div_le_div_of_nonneg_right ?_ hpos.le
  by_cases hc : c = divEven n d
  · rw [hc]
  · exact_mod_cast (divEven_closer hd hc).elim le_of_lt fun h => le_of_eq h.1

/-- **The two multiples of a power of ten next to a magnitude**: `f` and `f + 1` times the power.
One of them, `g`, is as near to the magnitude as any other multiple. It is tried first, and `h`
behind it. -/
theorem exists_neighbour_eq (a : Nat) (k : ℤ) : ∃ f g h : Nat,
    (f : ℚ) * 10 ^ k ≤ magnitude a ∧ magnitude a < (f + 1) * 10 ^ k ∧
      (g = f ∧ h = f + 1 ∨ g = f + 1 ∧ h = f) ∧
      (∀ c : Nat, |magnitude a - g * 10 ^ k| ≤ |magnitude a - c * 10 ^ k|) ∧
      neighbour a k = [(⟨g, k⟩ : Decimal), ⟨h, k⟩].find? fun d => d.nearest = a := by
  have hpow : (0 : ℚ) < 10 ^ k := zpow_pos (by norm_num) k
  have hden : 0 < unitsPerOne * Nat.pow 10 k.toNat :=
    Nat.mul_pos unitsPerOne_pos (Nat.pow_pos (by decide))
  have hquotient := magnitude_div_pow a k
  unfold neighbour
  dsimp only
  generalize units a * Nat.pow 10 (-k).toNat = n at hquotient ⊢
  generalize unitsPerOne * Nat.pow 10 k.toNat = d at hden hquotient ⊢
  have hmagnitude : magnitude a = n / d * 10 ^ k := by
    rw [← hquotient, div_mul_cancel₀ _ hpow.ne']
  have hd : (0 : ℚ) < d := by exact_mod_cast hden
  have hclose : ∀ c : Nat,
      |magnitude a - divEven n d * 10 ^ k| ≤ |magnitude a - c * 10 ^ k| := by
    intro c
    rw [hmagnitude, ← sub_mul, ← sub_mul, abs_mul, abs_mul]
    exact mul_le_mul_of_nonneg_right (abs_div_sub_divEven_le n hden c) (abs_nonneg _)
  have hlow : ((n / d : ℕ) : ℚ) * 10 ^ k ≤ magnitude a := by
    rw [hmagnitude, mul_le_mul_iff_left₀ hpow, le_div_iff₀ hd]
    exact_mod_cast Nat.div_mul_le_self n d
  have hhigh : magnitude a < ((n / d : ℕ) + 1) * 10 ^ k := by
    rw [hmagnitude, mul_lt_mul_iff_left₀ hpow, div_lt_iff₀' hd]
    exact_mod_cast Nat.lt_mul_div_succ n hden
  by_cases hdown : divEven n d = n / d
  · rw [if_pos hdown]
    exact ⟨_, _, _, hlow, hhigh, .inl ⟨rfl, rfl⟩, hdown ▸ hclose, rfl⟩
  · have hup : divEven n d = n / d + 1 := by
      have := div_le_divEven n d
      have := divEven_le_succ n d
      omega
    rw [if_neg hdown]
    exact ⟨_, _, _, hlow, hhigh, .inr ⟨rfl, rfl⟩, hup ▸ hclose, rfl⟩

/-- Between a magnitude and any multiple of a power of ten is the one next to the magnitude on the
same side. -/
theorem next_mem_uIcc {f : Nat} (hlow : (f : ℚ) * 10 ^ k ≤ magnitude a)
    (hhigh : magnitude a < (f + 1) * 10 ^ k) (c : Nat) :
    (c ≤ f → (f : ℚ) * 10 ^ k ∈ Set.uIcc ((c : ℚ) * 10 ^ k) (magnitude a)) ∧
      (f < c → ((f + 1 : ℕ) : ℚ) * 10 ^ k ∈ Set.uIcc ((c : ℚ) * 10 ^ k) (magnitude a)) := by
  have hpow : (0 : ℚ) < 10 ^ k := zpow_pos (by norm_num) k
  have hmono : ∀ {m n : Nat}, m ≤ n → (m : ℚ) * 10 ^ k ≤ n * 10 ^ k := fun hmn =>
    mul_le_mul_of_nonneg_right (by exact_mod_cast hmn) hpow.le
  refine ⟨fun hle => Set.mem_uIcc_of_le (hmono hle) hlow, fun hlt => ?_⟩
  refine Set.mem_uIcc_of_ge ?_ (hmono hlt)
  rw [Nat.cast_add_one]
  exact hhigh.le

/-- **A neighbour is found** if any multiple of the power of ten rounds to the magnitude. -/
theorem isSome_neighbour {c : Nat} (ha : a < ordinals) (hc : Rounds (c * 10 ^ k) a) :
    (neighbour a k).isSome := by
  obtain ⟨f, g, h, hlow, hhigh, hgh, -, heq⟩ := exists_neighbour_eq a k
  obtain ⟨hdown, hup⟩ := next_mem_uIcc hlow hhigh c
  rw [heq, List.find?_isSome]
  rcases Nat.lt_or_ge f c with hlt | hle
  · have hnearest := Decimal.nearest_of_mem_uIcc (d := ⟨f + 1, k⟩) ha hc (hup hlt)
    exact ⟨_, by rcases hgh with ⟨rfl, rfl⟩ | ⟨rfl, rfl⟩ <;> simp, decide_eq_true hnearest⟩
  · have hnearest := Decimal.nearest_of_mem_uIcc (d := ⟨f, k⟩) ha hc (hdown hle)
    exact ⟨_, by rcases hgh with ⟨rfl, rfl⟩ | ⟨rfl, rfl⟩ <;> simp, decide_eq_true hnearest⟩

/-- **A neighbour that is found** rounds to the magnitude, is as near to it as any multiple of the
power of ten that does, and is no larger than any multiple above the magnitude. -/
theorem neighbour_spec {d : Decimal} (ha : a < ordinals) (hd : neighbour a k = some d) :
    (∀ c : Nat, magnitude a < c * 10 ^ k → d.coefficient ≤ c) ∧ Rounds d.rational a ∧
      ∀ c : Nat, Rounds (c * 10 ^ k) a →
        |magnitude a - d.rational| ≤ |magnitude a - c * 10 ^ k| := by
  have hpow : (0 : ℚ) < 10 ^ k := zpow_pos (by norm_num) k
  obtain ⟨f, g, h, hlow, hhigh, hgh, hclose, heq⟩ := exists_neighbour_eq a k
  have hbound : ∀ m : Nat, m ≤ f + 1 → ∀ c : Nat, magnitude a < c * 10 ^ k → m ≤ c := by
    intro m hm c hc
    have hlt : (f : ℚ) < c := (mul_lt_mul_iff_left₀ hpow).mp (lt_of_le_of_lt hlow hc)
    exact Nat.le_trans hm (by exact_mod_cast hlt)
  rw [heq] at hd
  have hnearest : d.nearest = a := by simpa using List.find?_some hd
  rw [Decimal.nearest_eq_iff ha] at hnearest
  by_cases hg : (⟨g, k⟩ : Decimal).nearest = a
  · rw [List.find?_cons_of_pos (by simpa using hg)] at hd
    obtain rfl := Option.some.inj hd
    exact ⟨hbound g (by omega), hnearest, fun c _ => hclose c⟩
  -- all multiples that round to the magnitude are on the other side of it than the one tried first
  · rw [List.find?_cons_of_neg (by simpa using hg)] at hd
    obtain rfl : ⟨h, k⟩ = d := List.mem_singleton.mp (List.mem_of_find?_eq_some hd) ▸ rfl
    refine ⟨hbound h (by omega), hnearest, fun c hc => ?_⟩
    obtain ⟨hdown, hup⟩ := next_mem_uIcc hlow hhigh c
    rcases hgh with ⟨rfl, rfl⟩ | ⟨rfl, rfl⟩
    · have hlt : g < c := by
        by_contra hle
        exact hg (Decimal.nearest_of_mem_uIcc ha hc (hdown (by omega)))
      exact Set.abs_sub_right_of_mem_uIcc (hup hlt)
    · have hle : c ≤ h := by
        by_contra hlt
        exact hg (Decimal.nearest_of_mem_uIcc ha hc (hup (by omega)))
      exact Set.abs_sub_right_of_mem_uIcc (hdown hle)

/-! ### Seventeen digits -/

/-- A magnitude that is cut off behind `n` decimal places keeps its point if a digit is left. -/
theorem magnitude_bounds_of_le {n : Nat} (ha : 0 < a) (hn : unitsPerOne ≤ Nat.pow 10 n)
    {d : Decimal} (hd : d = ⟨units a * Nat.pow 10 n / unitsPerOne, -n⟩) :
    10 ^ (d.point - 1) ≤ magnitude a ∧ magnitude a < 10 ^ d.point := by
  have hten : (0 : ℚ) < 10 ^ (-n : ℤ) := zpow_pos (by norm_num) _
  have hw : (0 : ℚ) < unitsPerOne := by exact_mod_cast unitsPerOne_pos
  have hmagnitude : magnitude a = (units a * Nat.pow 10 n : ℕ) / unitsPerOne * 10 ^ (-n : ℤ) := by
    have hup : (-(-n) : ℤ).toNat = n := by omega
    have hone : Nat.pow 10 (-n : ℤ).toNat = 1 := congrArg (Nat.pow 10) (by omega : _ = 0)
    have hquotient := magnitude_div_pow a (-n)
    rwa [hup, hone, Nat.mul_one unitsPerOne, div_eq_iff hten.ne'] at hquotient
  have hle : Nat.pow 10 n ≤ units a * Nat.pow 10 n := Nat.le_mul_of_pos_left _ (units_pos ha)
  generalize units a * Nat.pow 10 n = m at hd hmagnitude hle
  obtain ⟨t, ht⟩ : ∃ t, t = m / unitsPerOne := ⟨_, rfl⟩
  rw [← ht] at hd
  subst hd
  constructor
  · have hpos : 0 < t := by
      rw [ht]
      exact Nat.div_pos (Nat.le_trans hn hle) unitsPerOne_pos
    refine le_trans (Decimal.le_rational (d := ⟨t, -n⟩) hpos) ?_
    rw [hmagnitude, Decimal.rational, mul_le_mul_iff_left₀ hten, le_div_iff₀ hw, ht]
    exact_mod_cast Nat.div_mul_le_self m unitsPerOne
  · have hdigits : t < 10 ^ (Nat.toDigits 10 t).length :=
      (Nat.length_toDigits_le_iff (by decide) Nat.length_toDigits_pos).mp (Nat.le_refl _)
    have hlt : m < 10 ^ (Nat.toDigits 10 t).length * unitsPerOne :=
      calc m < (t + 1) * unitsPerOne := by
            rw [ht, Nat.mul_comm]
            exact Nat.lt_mul_div_succ m unitsPerOne_pos
        _ ≤ 10 ^ (Nat.toDigits 10 t).length * unitsPerOne := Nat.mul_le_mul_right _ hdigits
    rw [hmagnitude, Decimal.point, zpow_add₀ (by norm_num), zpow_natCast, mul_lt_mul_iff_left₀ hten,
      div_lt_iff₀ hw]
    exact_mod_cast hlt

/-- A magnitude lies between ten to its point and a tenth of that. -/
theorem magnitude_bounds (ha : 0 < a) :
    10 ^ (decimalPoint (units a) - 1) ≤ magnitude a ∧
      magnitude a < 10 ^ decimalPoint (units a) := by
  have hleast : unitsPerOne ≤ Nat.pow 10 324 := by decide +kernel
  have hbounds := magnitude_bounds_of_le ha hleast rfl
  unfold Decimal.point at hbounds
  unfold decimalPoint
  generalize units a * Nat.pow 10 324 / unitsPerOne = t at hbounds ⊢
  exact hbounds

/-- The gap around a magnitude, from the one below to the one above, does not get too small beside
it. It is smallest where the exponent field changes. -/
theorem units_gap (a : Nat) : 2 * units (a + 1) + 2 ^ 53 * units a ≤ 2 ^ 53 * units (a + 2) := by
  obtain ⟨k, m, ha, hm, hk⟩ := exists_significand (a + 1)
  have hmiddle : units (a + 1) = m * 2 ^ k := by
    rw [ha]
    exact units_mul_add (Nat.le_of_lt hm) hk
  have hnext : units (a + 2) = (m + 1) * 2 ^ k := by
    rw [show a + 2 = k * significands + (m + 1) by omega]
    exact units_mul_add hm (hk.imp_right Nat.le_succ_of_le)
  rw [hmiddle, hnext]
  by_cases hfield : k = 0 ∨ significands < m
  · obtain ⟨m, rfl⟩ : ∃ j, m = j + 1 := ⟨m - 1, by
      unfold significands at *
      omega⟩
    have hbelow : units a = m * 2 ^ k := by
      rw [show a = k * significands + m by omega]
      exact units_mul_add (by omega) (hfield.imp_right Nat.le_of_lt_succ)
    have hle : (m + 1) * 2 ^ k ≤ 2 ^ 53 * 2 ^ k := Nat.mul_le_mul_right _ (Nat.le_of_lt hm)
    rw [hbelow]
    simp only [Nat.add_mul] at hle ⊢
    omega
  · obtain ⟨hpos, hfirst⟩ := not_or.mp hfield
    obtain ⟨k, rfl⟩ := Nat.exists_eq_succ_of_ne_zero hpos
    obtain rfl : m = significands := by omega
    have hbelow : units a = (2 * significands - 1) * 2 ^ k := by
      rw [show a = k * significands + (2 * significands - 1) by
        unfold significands at *
        omega]
      exact units_mul_add (by omega) (.inr (by decide))
    rw [hbelow, Nat.pow_succ]
    generalize 2 ^ k = p
    unfold significands
    omega

theorem magnitude_gap (a : Nat) :
    2 * magnitude (a + 1) ≤ 2 ^ 53 * (magnitude (a + 2) - magnitude a) := by
  have hpos : (0 : ℚ) < unitsPerOne := by exact_mod_cast unitsPerOne_pos
  have hgap : (2 * units (a + 1) + 2 ^ 53 * units a : ℚ) ≤ 2 ^ 53 * units (a + 2) := by
    exact_mod_cast units_gap a
  unfold magnitude
  rw [← sub_div, ← mul_div_assoc, ← mul_div_assoc, div_le_div_iff_of_pos_right hpos]
  linarith

/-- **Seventeen digits suffice** to tell a magnitude from all others. -/
theorem exists_rounds_seventeen (ha : 0 < a) :
    ∃ c : Nat, Rounds (c * 10 ^ (decimalPoint (units a) - 17)) a := by
  obtain ⟨b, rfl⟩ : ∃ b, a = b + 1 := ⟨a - 1, by omega⟩
  obtain ⟨f, -, -, hlow, hhigh, -⟩ :=
    exists_neighbour_eq (b + 1) (decimalPoint (units (b + 1)) - 17)
  have hleast : (10 : ℚ) ^ 16 * 10 ^ (decimalPoint (units (b + 1)) - 17) ≤ magnitude (b + 1) := by
    have hsplit := pow_mul_zpow_sub 16 (decimalPoint (units (b + 1)) - 1)
    rw [sub_sub] at hsplit
    exact le_trans (by exact_mod_cast hsplit.le) (magnitude_bounds ha).1
  have hpow : (0 : ℚ) < 10 ^ (decimalPoint (units (b + 1)) - 17) := zpow_pos (by norm_num) _
  have hbelow := strictMono_magnitude (Nat.lt_succ_self b)
  have habove := strictMono_magnitude (Nat.lt_succ_self (b + 1))
  generalize decimalPoint (units (b + 1)) - 17 = k at hlow hhigh hleast hpow ⊢
  by_cases hdown : magnitude b + magnitude (b + 1) < 2 * (f * 10 ^ k)
  · refine ⟨f, Decimal.rounds_of_lt_of_lt (d := ⟨f, k⟩) hdown ?_⟩
    rw [Decimal.rational]
    linarith
  · by_cases hup : 2 * ((f + 1) * 10 ^ k) < magnitude (b + 1) + magnitude (b + 2)
    · refine ⟨f + 1, Decimal.rounds_of_lt_of_lt (d := ⟨f + 1, k⟩) ?_ ?_⟩
      all_goals
        rw [Decimal.rational, Nat.cast_add_one]
        linarith
    -- otherwise the gap is no wider than two multiples, and these are small beside the magnitude
    · have hgap := magnitude_gap b
      linarith

/-! ### The search -/

/-- If a number of at most `n` digits rounds to a magnitude, a multiple of the power of ten that
goes with `n` digits does so, too, and is no farther from the magnitude. -/
theorem exists_multiple {n : Nat} {r : ℚ} (ha : 0 < a) (hr : Rounds r a) (hfit : FitsIn n r) :
    0 < n ∧ ∃ c : Nat, Rounds (c * 10 ^ (decimalPoint (units a) - n)) a ∧
      |magnitude a - c * 10 ^ (decimalPoint (units a) - n)| ≤ |magnitude a - r| := by
  obtain ⟨c, j, hc, rfl⟩ := hfit
  obtain ⟨hleast, -⟩ := magnitude_bounds ha
  have hn : 0 < n := by
    refine Nat.pos_of_ne_zero fun hzero => Nat.ne_of_gt ha ?_
    obtain rfl : c = 0 := by
      rw [hzero] at hc
      omega
    rw [hr.eq_zero_iff, Nat.cast_zero, zero_mul]
    exact div_nonneg (magnitude_pos one_pos).le zero_le_two
  refine ⟨hn, ?_⟩
  generalize decimalPoint (units a) = point at hleast ⊢
  rcases le_or_gt (point - n) j with hj | hj
  · have hscale : ((c * 10 ^ (j - (point - n)).toNat : ℕ) : ℚ) * 10 ^ (point - n) = c * 10 ^ j := by
      have hexp : j - (j - (point - n)).toNat = point - n := by omega
      have hsplit := pow_mul_zpow_sub (j - (point - n)).toNat j
      rw [hexp] at hsplit
      rw [Nat.cast_mul, mul_assoc, hsplit]
    exact ⟨_, by rwa [hscale], by rw [hscale]⟩
  -- the number is below the first power of ten below the magnitude, which is between them
  · have hscale : ((10 ^ (n - 1) : ℕ) : ℚ) * 10 ^ (point - n) = 10 ^ (point - 1) := by
      have hexp : point - n = point - 1 - (n - 1 : ℕ) := by omega
      rw [hexp, pow_mul_zpow_sub]
    have hle : (c : ℚ) * 10 ^ j ≤ 10 ^ (point - 1) :=
      calc (c : ℚ) * 10 ^ j ≤ 10 ^ n * 10 ^ j :=
            mul_le_mul_of_nonneg_right (by exact_mod_cast hc.le) (zpow_nonneg (by norm_num) _)
        _ = 10 ^ (n + j) := by rw [zpow_add₀ (by norm_num), zpow_natCast]
        _ ≤ 10 ^ (point - 1) := zpow_le_zpow_right₀ (by norm_num) (by omega)
    have hmem : ((10 ^ (n - 1) : ℕ) : ℚ) * 10 ^ (point - n) ∈
        Set.uIcc ((c : ℚ) * 10 ^ j) (magnitude a) := by
      rw [hscale]
      exact Set.mem_uIcc_of_le hle hleast
    exact ⟨10 ^ (n - 1), Decimal.rounds_of_mem_uIcc (d := ⟨10 ^ (n - 1), point - n⟩) hr hmem,
      Set.abs_sub_right_of_mem_uIcc hmem⟩

/-- The search ends at the first number of digits for which a neighbour is found. -/
theorem exists_neighbour_le {n : Nat} (hn : n < 17)
    (h : (neighbour a (decimalPoint (units a) - (n + 1))).isSome) :
    ∃ m ≤ n, neighbour a (decimalPoint (units a) - (m + 1)) = some (shortest a) := by
  have hfront : List.range (n + 1) <+: List.range 17 := by
    have htake := List.take_prefix (n + 1) (List.range 17)
    rwa [List.take_range, Nat.min_eq_left (by omega)] at htake
  have hfound : ((List.range (n + 1)).findSome? fun m : Nat =>
      neighbour a (decimalPoint (units a) - (m + 1))).isSome :=
    List.findSome?_isSome_iff.mpr ⟨n, List.mem_range.mpr (Nat.lt_succ_self n), h⟩
  obtain ⟨d, hd⟩ := Option.isSome_iff_exists.mp hfound
  obtain ⟨m, hm, hmd⟩ := List.exists_of_findSome?_eq_some hd
  refine ⟨m, Nat.le_of_lt_succ (List.mem_range.mp hm), ?_⟩
  rw [hmd, shortest, hfront.findSome?_eq_some hd, Option.getD_some]

/-- A number is a **shortest** one for a magnitude when it rounds to it, fits in as few digits as
any number that does, and is as near to it as any of those. -/
structure IsShortest (a : Nat) (q : ℚ) : Prop where
  rounds : Rounds q a
  fits : ∀ (n : Nat) (r : ℚ), Rounds r a → FitsIn n r → FitsIn n q
  nearest : ∀ r, Rounds r a → (∀ n, FitsIn n q → FitsIn n r) → |magnitude a - q| ≤ |magnitude a - r|

/-- **The shortest decimal is a shortest one.** -/
theorem isShortest_shortest (ha : 0 < a) (ha' : a < ordinals) :
    IsShortest a (shortest a).rational := by
  obtain ⟨-, hmagnitude⟩ := magnitude_bounds ha
  have hfits : ∀ m : Nat, neighbour a (decimalPoint (units a) - (m + 1)) = some (shortest a) →
      FitsIn (m + 1) (shortest a).rational := by
    intro m hm
    obtain ⟨hcoefficient, -, -⟩ := neighbour_spec ha' hm
    have hsplit := pow_mul_zpow_sub (m + 1) (decimalPoint (units a))
    rw [Nat.cast_add_one] at hsplit
    exact Decimal.fitsIn_of_le (hcoefficient _ (hmagnitude.trans_eq hsplit.symm))
  obtain ⟨c, hc⟩ := exists_rounds_seventeen ha
  obtain ⟨m, hm, hfound⟩ := exists_neighbour_le (n := 16) (by decide) (isSome_neighbour ha' hc)
  obtain ⟨-, hrounds, hnearest⟩ := neighbour_spec ha' hfound
  refine ⟨hrounds, fun n r hr hfit => ?_, fun r hr hfit => ?_⟩
  · obtain ⟨hn, c, hc, -⟩ := exists_multiple ha hr hfit
    obtain ⟨n, rfl⟩ := Nat.exists_eq_succ_of_ne_zero (Nat.ne_of_gt hn)
    rcases Nat.lt_or_ge n 17 with hlt | hge
    · obtain ⟨j, hj, hfound'⟩ := exists_neighbour_le hlt (isSome_neighbour ha' hc)
      exact (hfits j hfound').mono (Nat.succ_le_succ hj)
    · exact (hfits m hfound).mono (by omega)
  · obtain ⟨-, c, hc, hclose⟩ := exists_multiple ha hr (hfit _ (hfits m hfound))
    exact (hnearest c hc).trans hclose

end Double

end Reckoner
