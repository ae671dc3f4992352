import Reckoner.Double.Arithmetic

/-!
# Agreement of doubles

Equality of doubles takes the two zeros for one number and tells NaNs apart by the computation that
made them (`Double.same_iff`). Doubles *agree* when they are equal, or both a NaN
(`Double.Agree`).

Signs, sums, differences and products of numbers that agree agree. A quotient is the exception, and
only by a zero: one divided by the two zeros gives the two infinities. Main statement:
`Double.Agree.div`.
-/

namespace Reckoner.Double

variable {x y x' y' z : Double}

/-! ### Equality -/

/-- **Equality of doubles**: the zeros are equal whatever their signs are, and no other different
doubles are. -/
theorem same_iff : x.same y = true ↔ x = y ∨ ∃ s t, x = zero s ∧ y = zero t := by
  constructor
  · intro h
    cases x with
    | finite s a =>
      cases y with
      | finite t b =>
        obtain ⟨hab, hst⟩ := Bool.and_eq_true_iff.mp h
        obtain rfl : a = b := of_decide_eq_true hab
        rcases Bool.or_eq_true_iff.mp hst with hst | ha
        · exact .inl (congrArg (finite · a) (of_decide_eq_true hst))
        · obtain rfl : a = ⟨0, by decide⟩ := Fin.ext (of_decide_eq_true ha)
          exact .inr ⟨s, t, rfl, rfl⟩
      | _ => cases h
    | infinite s =>
      cases y with
      | infinite t => exact .inl (congrArg infinite (of_decide_eq_true h))
      | _ => cases h
    | nan p =>
      cases y with
      | nan q => exact .inl (congrArg nan (of_decide_eq_true h))
      | _ => cases h
  · rintro (rfl | ⟨s, t, rfl, rfl⟩)
    · cases x <;> simp [same]
    · simp [same, zero]

/-! ### Agreement -/

/-- Doubles **agree** when they are equal or both a NaN. -/
inductive Agree : Double → Double → Prop
  | refl (x : Double) : Agree x x
  | zeros (s t : Bool) : Agree (zero s) (zero t)
  | nans (p q : Nat) : Agree (nan p) (nan q)

theorem Agree.of_same (h : x.same y = true) : Agree x y := by
  rcases same_iff.mp h with rfl | ⟨s, t, rfl, rfl⟩
  · exact .refl x
  · exact .zeros s t

/-- Doubles agree exactly if they are equal or both a NaN. -/
theorem agree_iff : Agree x y ↔ x.same y = true ∨ (∃ p, x = nan p) ∧ ∃ q, y = nan q := by
  constructor
  · rintro (_ | ⟨s, t⟩ | ⟨p, q⟩)
    · exact .inl (same_iff.mpr (.inl rfl))
    · exact .inl (same_iff.mpr (.inr ⟨s, t, rfl, rfl⟩))
    · exact .inr ⟨⟨p, rfl⟩, q, rfl⟩
  · rintro (h | ⟨⟨p, rfl⟩, q, rfl⟩)
    · exact .of_same h
    · exact .nans p q

/-! ### Arithmetic -/

/-- Whether a number is a zero of either sign. -/
def isZero (x : Double) : Bool := x.same (zero false)

theorem isZero_iff : x.isZero = true ↔ ∃ s, x = zero s := by
  rw [isZero, same_iff]
  constructor
  · rintro (rfl | ⟨s, -, rfl, -⟩)
    · exact ⟨false, rfl⟩
    · exact ⟨s, rfl⟩
  · rintro ⟨s, rfl⟩
    exact .inr ⟨s, false, rfl, rfl⟩

theorem units_zero : units 0 = 0 := by decide

theorem signedUnits_zero (s : Bool) : signedUnits s 0 = 0 := by
  rw [signedUnits, units_zero, Int.ofNat_zero, Int.neg_zero, ite_self]

/-- No units are rounded to a zero. -/
theorem ofUnits_zero (s : Bool) (d : Nat) : ofUnits s 0 d = zero s := by
  have hquotient : ∀ d, divEven 0 d = 0 := by
    intro d
    rcases Nat.eq_zero_or_pos d with rfl | hd
    · rfl
    · simp [divEven, hd]
  have hnearest : nearest 0 d = 0 := by
    rw [nearest, hquotient, Nat.zero_div]
    rfl
  rw [ofUnits, hnearest]
  rfl

namespace Agree

theorem trans (h : Agree x y) (h' : Agree y z) : Agree x z := by
  cases h with
  | refl => exact h'
  | zeros s t =>
    cases h' with
    | refl => exact .zeros s t
    | zeros _ u => exact .zeros s u
  | nans p q =>
    cases h' with
    | refl => exact .nans p q
    | nans _ r => exact .nans p r

instance : Trans Agree Agree Agree := ⟨trans⟩

theorem neg (h : Agree x y) : Agree (-x) (-y) := by
  cases h with
  | refl => exact .refl _
  | zeros s t => exact .zeros (!s) (!t)
  | nans p q => exact .nans p q

/-- The order of two summands only shows in the payload of a NaN. -/
theorem add_comm (x y : Double) : Agree (x + y) (y + x) := by
  show Agree (add x y) (add y x)
  cases x with
  | finite s a =>
    cases y with
    | finite t b =>
      rw [add, add, Int.add_comm, Bool.and_comm]
      exact .refl _
    | _ => exact .refl _
  | infinite s =>
    cases y with
    | infinite t =>
      by_cases hst : s = t
      · rw [hst]
        exact .refl _
      · rw [add, add, if_neg hst, if_neg (Ne.symm hst)]
        exact .refl _
    | _ => exact .refl _
  | nan p =>
    cases y with
    | nan q => exact .nans p q
    | _ => exact .refl _

theorem add_right (x : Double) (h : Agree y y') : Agree (x + y) (x + y') := by
  show Agree (add x y) (add x y')
  cases h with
  | refl => exact .refl _
  | zeros s t =>
    cases x with
    | finite u a =>
      -- a zero of either sign adds nothing
      simp only [add, zero, signedUnits_zero]
      split
      · exact .zeros _ _
      · exact .refl _
    | _ => exact .refl _
  | nans p q =>
    cases x with
    | nan r => exact .refl _
    | _ => exact .nans p q

theorem add (h : Agree x x') (h' : Agree y y') : Agree (x + y) (x' + y') :=
  calc Agree (x + y) (x + y') := add_right x h'
    Agree _ (y' + x) := add_comm x y'
    Agree _ (y' + x') := add_right y' h
    Agree _ (x' + y') := add_comm y' x'

theorem sub (h : Agree x x') (h' : Agree y y') : Agree (x - y) (x' - y') := h.add h'.neg

/-- The order of two factors only shows in the payload of a NaN. -/
theorem mul_comm (x y : Double) : Agree (x * y) (y * x) := by
  show Agree (mul x y) (mul y x)
  cases x with
  | finite s a =>
    cases y with
    | finite t b =>
      rw [mul, mul, Nat.mul_comm, bne_comm]
      exact .refl _
    | infinite t =>
      rw [mul, mul, bne_comm]
      exact .refl _
    | nan q => exact .refl _
  | infinite s =>
    cases y with
    | finite t b =>
      rw [mul, mul, bne_comm]
      exact .refl _
    | infinite t =>
      rw [mul, mul, bne_comm]
      exact .refl _
    | nan q => exact .refl _
  | nan p =>
    cases y with
    | nan q => exact .nans p q
    | _ => exact .refl _

theorem mul_right (x : Double) (h : Agree y y') : Agree (x * y) (x * y') := by
  show Agree (Double.mul x y) (Double.mul x y')
  cases h with
  | refl => exact .refl _
  | zeros s t =>
    cases x with
    | finite u a =>
      simp only [Double.mul, zero, units_zero, Nat.mul_zero, ofUnits_zero]
      exact .zeros _ _
    | _ => exact .refl _
  | nans p q =>
    cases x with
    | nan r => exact .refl _
    | _ => exact .nans p q

theorem mul (h : Agree x x') (h' : Agree y y') : Agree (x * y) (x' * y') :=
  calc Agree (x * y) (x * y') := mul_right x h'
    Agree _ (y' * x) := mul_comm x y'
    Agree _ (y' * x') := mul_right y' h
    Agree _ (x' * y') := mul_comm y' x'

/-- Dividends that agree have quotients that agree. -/
theorem div_left (h : Agree x x') (y : Double) : Agree (x / y) (x' / y) := by
  show Agree (Double.div x y) (Double.div x' y)
  cases h with
  | refl => exact .refl _
  | zeros s t =>
    cases y with
    | finite u b =>
      simp only [Double.div, zero, units_zero, Nat.zero_mul, ofUnits_zero]
      split
      · exact .refl _
      · exact .zeros _ _
    | infinite u => exact .zeros _ _
    | nan p => exact .refl _
  | nans p q => exact .nans p q

/-- **Quotients agree** if dividends and divisors do, unless the divisors are zeros: their signs
count. -/
theorem div (h : Agree x x') (h' : Agree y y') (hy : y.isZero = false) :
    Agree (x / y) (x' / y') := by
  refine (h.div_left y).trans ?_
  show Agree (Double.div x' y) (Double.div x' y')
  cases h' with
  | refl => exact .refl _
  | zeros s t =>
    rw [isZero_iff.mpr ⟨s, rfl⟩] at hy
    cases hy
  | nans p q =>
    cases x' with
    | nan r => exact .refl _
    | _ => exact .nans p q

end Agree

end Reckoner.Double
