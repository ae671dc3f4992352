import Reckoner.Proofs.Double.Rounding

/-!
# Decimals read back

Zeros at the end of a coefficient do not change what a decimal rounds to
(`Decimal.nearest_scale`), and the shortest decimal of a magnitude rounds to that magnitude
(`Double.nearest_shortest`). The search for short decimals tests each of them, so what has to be
shown is that the exact decimal it falls back on passes too.
-/

namespace Reckoner

/-! ### Digits of a number -/

/-- Ten times a number has one more digit, a zero. -/
theorem toDigits_ten_mul {n : Nat} (hn : 0 < n) :
    Nat.toDigits 10 (10 * n) = Nat.toDigits 10 n ++ ['0'] :=
  (Nat.toDigits_append_toDigits (d := 0) (by decide) hn (by decide)).symm

theorem length_toDigits_mul_pow {n : Nat} (hn : 0 < n) (m : Nat) :
    (Nat.toDigits 10 (n * 10 ^ m)).length = (Nat.toDigits 10 n).length + m := by
  induction m with
  | zero => simp
  | succ m ih =>
    rw [Nat.pow_succ, ← Nat.mul_assoc, Nat.mul_comm _ 10,
      toDigits_ten_mul (Nat.mul_pos hn (Nat.pow_pos (by decide))), List.length_append, ih]
    rfl

/-- A number between two powers of ten has a length between their exponents. -/
theorem length_toDigits_bounds {n low high : Nat} (hlow : 0 < low) (hn : 10 ^ low ≤ n)
    (hn' : n < 10 ^ high) :
    low < (Nat.toDigits 10 n).length ∧ (Nat.toDigits 10 n).length ≤ high := by
  have hhigh : low < high :=
    (Nat.pow_lt_pow_iff_right (by decide)).mp (Nat.lt_of_le_of_lt hn hn')
  constructor
  · rw [← Nat.not_le, Nat.length_toDigits_le_iff (by decide) hlow, Nat.not_lt]
    exact hn
  · rw [Nat.length_toDigits_le_iff (by decide) (Nat.lt_trans hlow hhigh)]
    exact hn'

namespace Decimal

theorem point_scale {c : Nat} (hc : 0 < c) (k : Int) (m : Nat) :
    (⟨c * 10 ^ m, k - m⟩ : Decimal).point = (⟨c, k⟩ : Decimal).point := by
  simp only [point, length_toDigits_mul_pow hc]
  omega

/-- **Zeros at the end of a coefficient count as powers of ten.** -/
theorem nearest_scale (c : Nat) (k : Int) (m : Nat) :
    (⟨c * 10 ^ m, k - m⟩ : Decimal).nearest = (⟨c, k⟩ : Decimal).nearest := by
  rcases Nat.eq_zero_or_pos c with rfl | hc
  · simp [nearest]
  · have hzero : (c * 10 ^ m = 0) = (c = 0) := by
      have := Nat.mul_pos hc (Nat.pow_pos (n := m) (show 0 < 10 by decide))
      exact propext ⟨by omega, by omega⟩
    have hvalue : Double.nearest
        ((⟨c * 10 ^ m, k - m⟩ : Decimal).numerator * Double.unitsPerOne)
        (⟨c * 10 ^ m, k - m⟩ : Decimal).denominator =
        Double.nearest ((⟨c, k⟩ : Decimal).numerator * Double.unitsPerOne)
          (⟨c, k⟩ : Decimal).denominator := by
      have hten : ∀ n, 0 < Nat.pow 10 n := fun n => Nat.pow_pos (by decide)
      refine Double.nearest_congr (hten _) (hten _) ?_
      generalize Double.unitsPerOne = w
      simp only [numerator, denominator, Nat.pow_eq]
      -- both sides have the same power of ten
      have hexp : m + (k - m).toNat + (-k).toNat = k.toNat + (-(k - m)).toNat := by omega
      calc c * 10 ^ m * 10 ^ (k - m).toNat * w * 10 ^ (-k).toNat
          = c * w * 10 ^ (m + (k - m).toNat + (-k).toNat) := by
            rw [Nat.pow_add, Nat.pow_add]
            ac_rfl
        _ = c * 10 ^ k.toNat * w * 10 ^ (-(k - m)).toNat := by
            rw [hexp, Nat.pow_add]
            ac_rfl
    simp only [nearest, hvalue, point_scale hc, hzero]

/-- The same decimal, with zeros at the end of its coefficient. -/
def padded (d : Decimal) (m : Nat) : Decimal := ⟨d.coefficient * 10 ^ m, d.exponent - m⟩

@[simp] theorem padded_zero (d : Decimal) : d.padded 0 = d := by
  simp [padded]

theorem padded_padded (d : Decimal) (m n : Nat) : (d.padded m).padded n = d.padded (m + n) := by
  simp only [padded, Nat.pow_add, Nat.mul_assoc, Decimal.mk.injEq, true_and]
  omega

theorem nearest_padded (d : Decimal) (m : Nat) : (d.padded m).nearest = d.nearest :=
  nearest_scale d.coefficient d.exponent m

end Decimal

/-! ### The shortest decimal -/

namespace Double

/-- A decimal of moderate size is neither too long nor too small to be rounded as it is. The
factor `f` stands for a power of five. -/
private theorem point_bounds {u f t : Nat} (hu : 0 < u) (hu' : u < t) (hf : 10 ^ 744 ≤ f)
    (ht : t * f ≤ 10 ^ 1384) :
    -330 ≤ (⟨u * f, -1074⟩ : Decimal).point ∧ (⟨u * f, -1074⟩ : Decimal).point ≤ 310 := by
  have hpos : 0 < f := Nat.lt_of_lt_of_le (Nat.pow_pos (by decide)) hf
  obtain ⟨hlow, hhigh⟩ := length_toDigits_bounds (by decide)
    (Nat.le_trans hf (Nat.le_mul_of_pos_left f hu))
    (Nat.lt_of_lt_of_le (Nat.mul_lt_mul_of_pos_right hu' hpos) ht)
  simp only [Decimal.point]
  omega

/-- Halving `n` times is multiplying by five `n` times and moving the point by `n` places. -/
private theorem nearest_mul_pow_five {f w n : Nat} (u : Nat) (hf : f = 5 ^ n) (hw : w = 2 ^ n) :
    nearest ((⟨u * f, -n⟩ : Decimal).numerator * w) (⟨u * f, -n⟩ : Decimal).denominator =
      nearest u 1 := by
  refine nearest_congr (Nat.pow_pos (by decide)) Nat.one_pos ?_
  have hten : (10 : Nat) ^ n = 5 ^ n * 2 ^ n := Nat.mul_pow 5 2 n
  simp [Decimal.numerator, Decimal.denominator, hf, hw, hten, Nat.mul_assoc]

theorem nearest_exactDecimal {a : Nat} (ha : 0 < a) (ha' : a < ordinals) :
    (exactDecimal (units a)).nearest = a := by
  have hfield : a / significands < 2047 :=
    Nat.div_lt_of_lt_mul (by rw [Nat.mul_comm]; exact ha')
  -- the powers are too large to be looked into: only these facts about them are used
  have hf : Nat.pow 5 1074 = 5 ^ 1074 := by decide +kernel
  have hw : unitsPerOne = 2 ^ 1074 := by decide +kernel
  have hlow : 10 ^ 744 ≤ Nat.pow 5 1074 := by decide +kernel
  have hhigh : 2 ^ (53 + 2045) * Nat.pow 5 1074 ≤ 10 ^ 1384 := by decide +kernel
  rw [exactDecimal, Decimal.nearest]
  generalize Nat.pow 5 1074 = f at hf hlow hhigh ⊢
  generalize unitsPerOne = w at hw ⊢
  have hpos : 0 < f := Nat.lt_of_lt_of_le (Nat.pow_pos (by decide)) hlow
  obtain ⟨hmin, hmax⟩ := point_bounds (units_pos ha) (units_lt hfield) hlow hhigh
  rw [if_neg, if_neg (Int.not_lt.mpr hmax)]
  · exact (nearest_mul_pow_five (units a) hf hw).trans (nearest_units a)
  · simp only [Bool.or_eq_true, decide_eq_true_eq, not_or, Int.not_lt]
    exact ⟨Nat.ne_of_gt (Nat.mul_pos (units_pos ha) hpos), hmin⟩

/-- **The shortest decimal of a magnitude rounds to it.** -/
theorem nearest_shortest {a : Nat} (ha : 0 < a) (ha' : a < ordinals) :
    (shortest a).nearest = a := by
  unfold shortest
  dsimp only
  generalize hfound : List.findSome? (fun n : Nat =>
    neighbour a (decimalPoint (units a) - (n + 1))) (List.range 17) = found
  cases found with
  | none => exact nearest_exactDecimal ha ha'
  -- a short decimal was tested when it was found
  | some d =>
    obtain ⟨n, -, hn⟩ := List.exists_of_findSome?_eq_some hfound
    have htested := List.find?_some hn
    simpa using htested

end Double

end Reckoner
