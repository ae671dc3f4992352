import Reckoner.Proofs.Codec.Loading
import Reckoner.Proofs.Double.Reading
import Reckoner.Proofs.Expr.Numbers

/-!
# Numbers in documents and in expressions

A number can stand in a document as it is, or as the text of an expression. As it is, it is read as
an exact integer or as a double, and an integer is converted afterwards; in an expression its
digits are a literal, and a hyphen is a sign that is applied to the rounded literal. Neither way
refuses a number that is too large: both go on with an infinity, and with the same one
(`Json.Number.toDouble_eq_infinite_iff`).

Main statement: both ways succeed with equal values, and with the same description for all numbers
but `-0`, whose hyphen is lost with the exact integer (`Json.Number.exists_loads`).
-/

namespace Reckoner

/-- Digits that denote zero begin with a zero. -/
theorem Digits.head?_of_value_eq_zero {ds : Digits} (h : ds.value = 0) :
    ds.1.head? = some '0' := by
  obtain ⟨ds, hne, hds⟩ := ds
  cases ds with
  | nil => exact absurd rfl hne
  | cons c cs =>
    have hc := Char.isDigit_iff_toNat.mp (hds c List.mem_cons_self)
    rw [value, Nat.ofDigitChars_cons, Nat.ofDigitChars_eq_ofDigitChars_zero] at h
    have hpos : 0 < 10 ^ cs.length := Nat.pow_pos (by decide)
    have hzero : c.toNat - '0'.toNat = 0 := by
      rcases Nat.mul_eq_zero.mp (Nat.add_eq_zero_iff.mp h).1 with h | h <;> omega
    exact congrArg some (Char.toNat_inj.mp (by omega))

namespace Json.Number

variable (j : Number)

/-- The double nearest to a number; a zero keeps its sign. -/
def toDouble : Double := j.literal.numeral.decimal.toDouble j.negative

/-- Whether a number is the integer `-0`. -/
def isNegativeZero : Bool := j.negative && j.isInteger && j.literal.whole.value = 0

/-- **A number overflows** from the midpoint of the largest double and the next power of two on, to
the infinity of its sign. -/
theorem toDouble_eq_infinite_iff (s : Bool) : j.toDouble = .infinite s ↔
    s = j.negative ∧ 2 ^ 1024 - 2 ^ 970 ≤ j.literal.rational := by
  have hlarge : Double.ordinals ≤ j.literal.numeral.decimal.nearest ↔
      2 ^ 1024 - 2 ^ 970 ≤ j.literal.rational := by
    rw [← j.literal.value_eq_infinite_iff, Literal.value, Decimal.toDouble,
      Double.ofOrdinal_eq_infinite_iff, and_iff_right rfl]
  rw [toDouble, Decimal.toDouble, Double.ofOrdinal_eq_infinite_iff, hlarge, eq_comm]

theorem isNegativeZero_iff : j.isNegativeZero = true ↔
    j.negative = true ∧ j.isInteger = true ∧ j.literal.whole.value = 0 := by
  rw [isNegativeZero, Bool.and_eq_true_iff, Bool.and_eq_true_iff, decide_eq_true_eq, and_assoc]

/-! ### As a document -/

/-- The number that an integer literal denotes. -/
theorem decimal_of_isInteger (h : j.isInteger = true) :
    j.literal.numeral.decimal = ⟨j.literal.whole.value, 0⟩ := by
  obtain ⟨negative, ⟨whole, fraction, exponent⟩, hzero⟩ := j
  obtain ⟨hfraction, hexponent⟩ := Bool.and_eq_true_iff.mp h
  obtain rfl : fraction = none := Option.isNone_iff_eq_none.mp hfraction
  obtain rfl : exponent = none := Option.isNone_iff_eq_none.mp hexponent
  simp [Literal.numeral, Numeral.decimal, Digits.value]

theorem toDouble_of_isNegativeZero (h : j.isNegativeZero = true) : j.toDouble = .zero true := by
  obtain ⟨hnegative, hinteger, hvalue⟩ := j.isNegativeZero_iff.mp h
  rw [toDouble, j.decimal_of_isInteger hinteger, hnegative, hvalue]
  rfl

/-- An exact integer is converted to the double nearest to it, without the sign of a zero. -/
theorem ofRational_integer (h : j.isInteger = true) :
    Double.ofRational j.integer 1 = if j.isNegativeZero then .zero false else j.toDouble := by
  have habs : j.integer.natAbs = j.literal.whole.value := by
    rw [integer]
    cases j.negative <;> simp
  rw [Double.ofRational, habs, ← Decimal.toDouble_natural, toDouble, j.decimal_of_isInteger h]
  by_cases hzero : j.isNegativeZero = true
  · obtain ⟨-, -, hvalue⟩ := j.isNegativeZero_iff.mp hzero
    have hinteger : j.integer = 0 := Int.natAbs_eq_zero.mp (habs.trans hvalue)
    rw [if_pos hzero, hinteger, hvalue]
    rfl
  · have hsign : decide (j.integer < 0) = j.negative := by
      rw [integer]
      cases hnegative : j.negative with
      | true =>
        have hvalue : j.literal.whole.value ≠ 0 := fun hvalue =>
          hzero (j.isNegativeZero_iff.mpr ⟨hnegative, h, hvalue⟩)
        rw [if_pos rfl, decide_eq_true_eq]
        omega
      | false =>
        rw [if_neg Bool.false_ne_true, decide_eq_false_iff_not]
        omega
    rw [if_neg hzero, hsign]

/-- What a document that is a number stands for. -/
theorem loads_text : loads .standard j.text =
    .ok (.number (if j.isNegativeZero then .zero false else j.toDouble)) := by
  rw [loads, j.parse_text, datum]
  dsimp only
  split
  · next hinteger => rw [Expr.decode_integer, j.ofRational_integer hinteger]
  · next hinteger =>
    have hzero : j.isNegativeZero = false := by simp [isNegativeZero, hinteger]
    rw [hzero]
    rfl

/-! ### As an expression -/

/-- The tree of a number that is parsed. -/
def parsed : Expr :=
  if j.negative then .signed .minus (.number j.literal.value) else .number j.literal.value

theorem value_parsed : j.parsed.value = j.toDouble := by
  rw [parsed, toDouble]
  cases j.negative with
  | true => exact (Decimal.toDouble_true _).symm
  | false => rfl

theorem description_parsed : j.parsed.description = j.toDouble.text := by
  have hsign : j.toDouble.isSignSet = j.negative := Double.isSignSet_ofOrdinal _ _
  rw [parsed]
  cases hnegative : j.negative with
  | true =>
    rw [hnegative] at hsign
    rw [Double.text_of_isSignSet hsign, toDouble, hnegative, Decimal.toDouble_true,
      Double.neg_neg]
    rfl
  | false =>
    rw [toDouble, hnegative]
    rfl

/-- A number parses to its tree. -/
theorem parse_text_eq_parsed : Expr.parse j.text = .ok j.parsed := by
  rw [Expr.parse_eq_ok_iff, text, parsed]
  cases j.negative with
  | true =>
    refine ⟨?_, rfl⟩
    exact (Lexes.cons (.sign .minus) (.literal j.literal .nil)).terminals_eq
  | false => exact ⟨(Lexes.literal j.literal .nil).terminals_eq, rfl⟩

/-- What a document that is the string of a number stands for. -/
theorem loads_quoted_text :
    loads .standard (.scalar '"' :: (j.text ++ [.scalar '"'])) = .ok j.parsed := by
  rw [loads_quoted _ fun c hc => (j.isPlain_of_mem hc).1]
  exact Expr.decode_text_of_parse j.parse_text_eq_parsed

/-! ### Both ways -/

/-- The only number that is written `-0` is the negative zero among the integers. -/
theorem text_eq_iff : j.text = "-0" ↔ j.isNegativeZero = true := by
  have hchars : j.text = "-0" ↔
      (if j.negative then ['-'] else []) ++ j.literal.text = ['-', '0'] :=
    List.map_inj_right fun _ _ => CodePoint.scalar.inj
  rw [hchars]
  constructor
  · intro htext
    cases hnegative : j.negative with
    | true =>
      rw [hnegative] at htext
      have hzero : j.literal.text = ['0'] := (List.cons.inj htext).2
      rcases List.append_eq_singleton_iff.mp hzero with ⟨hwhole, -⟩ | ⟨hwhole, hrest⟩
      · exact absurd hwhole j.literal.whole.2.1
      · have hinteger := j.isInteger_iff.mpr (List.append_eq_nil_iff.mp hrest)
        refine j.isNegativeZero_iff.mpr ⟨hnegative, hinteger, ?_⟩
        rw [Digits.value, hwhole]
        rfl
    | false =>
      obtain ⟨c, cs, hcs, hc⟩ := j.literal.exists_text_eq_cons
      rw [hnegative, hcs] at htext
      cases htext
      cases hc
  · intro hzero
    obtain ⟨hnegative, hinteger, hvalue⟩ := j.isNegativeZero_iff.mp hzero
    obtain ⟨hfraction, hexponent⟩ := j.isInteger_iff.mp hinteger
    have hwhole := j.eq_zero (Digits.head?_of_value_eq_zero hvalue)
    rw [hnegative, Literal.text, hwhole, hfraction, hexponent]
    rfl

/-- **A number means the same as a JSON number and as an expression.** Both readings succeed, with
equal numbers, and only the first is certain to be a single number. From the midpoint of the largest
double and the next power of two on, and nowhere else, both are infinities, and both have the sign
of the number. The descriptions are the same, except that the integer `-0` loses its hyphen. -/
theorem exists_loads : ∃ e f, loads .standard j.text = .ok e ∧
    loads .standard (.scalar '"' :: (j.text ++ [.scalar '"'])) = .ok f ∧
    e.isNumber = true ∧ (∀ p, e.value ≠ .nan p) ∧ e.value.same f.value = true ∧
    (∀ s, e.value = .infinite s ↔
      s = j.negative ∧ 2 ^ 1024 - 2 ^ 970 ≤ j.literal.rational) ∧
    (∀ s, f.value = .infinite s ↔
      s = j.negative ∧ 2 ^ 1024 - 2 ^ 970 ≤ j.literal.rational) ∧
    (e.description = f.description ↔ j.text ≠ "-0") := by
  refine ⟨_, _, j.loads_text, j.loads_quoted_text, rfl, ?_⟩
  rw [j.value_parsed, j.description_parsed, Ne, j.text_eq_iff, Expr.value, Expr.description]
  cases hzero : j.isNegativeZero with
  | true =>
    have hinfinite := j.toDouble_eq_infinite_iff
    rw [j.toDouble_of_isNegativeZero hzero] at hinfinite ⊢
    -- a zero is no infinity, whichever sign it has
    have hne : ∀ s t, Double.zero s ≠ .infinite t := by
      intro s t h
      cases h
    refine ⟨fun p hp => ?_, rfl, fun s => ?_, hinfinite, by decide⟩
    · cases hp
    · exact (iff_of_false (hne false s) (hne true s)).trans (hinfinite s)
  | false =>
    exact ⟨fun p => Double.ofOrdinal_ne_nan _ _ p, Double.same_self _, j.toDouble_eq_infinite_iff,
      j.toDouble_eq_infinite_iff, iff_of_true rfl Bool.false_ne_true⟩

end Json.Number

end Reckoner
