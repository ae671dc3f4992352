import Reckoner.Double.Layout
import Reckoner.Proofs.Double.Decimal
import Reckoner.Proofs.Token.Literal

/-!
# The text of a double read back

Whatever form a magnitude is written in, its text is a literal that spells its shortest decimal
(`Literal.Spells`, `Double.exists_spells_magnitudeText`), and the literal is read as the magnitude
(`Double.exists_literal`). Both forms move the point without changing the number, except that
numbers without a fraction get zeros at the end, which do not count.
-/

namespace Reckoner

/-! ### Digits -/

namespace Digits

/-- Digits with zeros in front of them. -/
def zeros (n : Nat) (ds : Digits) : Digits :=
  ⟨List.replicate n '0' ++ ds.1, by simp [ds.2.1], by
    intro c hc
    rcases List.mem_append.mp hc with hc | hc
    · rw [List.eq_of_mem_replicate hc]
      rfl
    · exact ds.2.2 c hc⟩

/-- Digits and zeros behind them. -/
def padded (ds : Digits) (n : Nat) : Digits :=
  ⟨ds.1 ++ List.replicate n '0', by simp [ds.2.1], by
    intro c hc
    rcases List.mem_append.mp hc with hc | hc
    · exact ds.2.2 c hc
    · rw [List.eq_of_mem_replicate hc]
      rfl⟩

/-- The digits of a number. -/
def ofNat (n : Nat) : Digits :=
  ⟨Nat.toDigits 10 n, Nat.toDigits_ne_nil, fun _ hc =>
    Nat.isDigit_of_mem_toDigits (by decide) (by decide) hc⟩

@[simp] theorem value_zeros (n : Nat) (ds : Digits) : (zeros n ds).value = ds.value := by
  simp [zeros, value, Nat.ofDigitChars_append]

@[simp] theorem value_padded (ds : Digits) (n : Nat) :
    (ds.padded n).value = ds.value * 10 ^ n := by
  simp [padded, value, Nat.ofDigitChars_append, Nat.mul_comm]

@[simp] theorem value_ofNat (n : Nat) : (ofNat n).value = n := Nat.ofDigitChars_ten_toDigits

/-- The decimal `0.digits * 10 ^ point`. -/
def decimalAt (ds : Digits) (point : Int) : Decimal := ⟨ds.value, point - ds.1.length⟩

end Digits

namespace Double

theorem exists_significant_append (ds : List Char) :
    ∃ z, ds = significant ds ++ List.replicate z '0' := by
  have hzeros : ds.reverse.takeWhile (· = '0') =
      List.replicate (ds.reverse.takeWhile (· = '0')).length '0' := by
    refine List.eq_replicate_of_mem fun c hc => ?_
    simpa using List.all_eq_true.mp List.all_takeWhile c hc
  refine ⟨(ds.reverse.takeWhile (· = '0')).length, ?_⟩
  have hsplit := congrArg List.reverse
    (List.takeWhile_append_dropWhile (p := (· = '0')) (l := ds.reverse))
  rw [List.reverse_append, List.reverse_reverse, hzeros, List.reverse_replicate] at hsplit
  exact hsplit.symm

/-- The significant digits of a positive number, and how many zeros follow them. -/
theorem exists_significant {n : Nat} (hn : 0 < n) :
    ∃ (ds : Digits) (z : Nat), significant (Nat.toDigits 10 n) = ds.1 ∧
      n = ds.value * 10 ^ z ∧ (Nat.toDigits 10 n).length = ds.1.length + z := by
  obtain ⟨z, hz⟩ := exists_significant_append (Nat.toDigits 10 n)
  have hvalue : n = Nat.ofDigitChars 10 (significant (Nat.toDigits 10 n)) 0 * 10 ^ z := by
    have hdigits := Nat.ofDigitChars_ten_toDigits (n := n)
    rw [hz, Nat.ofDigitChars_append, Nat.ofDigitChars_replicate_zero, Nat.mul_comm] at hdigits
    exact hdigits.symm
  refine ⟨⟨significant (Nat.toDigits 10 n), ?_, fun c hc => ?_⟩, z, rfl, hvalue, ?_⟩
  · intro hnil
    rw [hnil, Nat.ofDigitChars_nil, Nat.zero_mul] at hvalue
    omega
  · have hmem : c ∈ Nat.toDigits 10 n := by
      rw [hz]
      exact List.mem_append_left _ hc
    exact Nat.isDigit_of_mem_toDigits (by decide) (by decide) hmem
  · have hlen := congrArg List.length hz
    rwa [List.length_append, List.length_replicate] at hlen

end Double

/-! ### The forms -/

/-- A literal **spells** a decimal with or without an exponent when it denotes the decimal, but for
zeros at the end of the coefficients. An exponent has a sign and at least two digits. -/
structure Literal.Spells (l : Literal) (d : Decimal) (exponent : Option Int) : Prop where
  decimal : ∃ n m, l.numeral.decimal.padded n = d.padded m
  exponent_eq : l.exponent.map Literal.Exponent.value = exponent
  explicit : ∀ x ∈ l.exponent, x.sign.isSome = true ∧ 2 ≤ x.digits.1.length

/-- The value of a literal that is read as an ordinal. -/
theorem Literal.value_of_nearest {l : Literal} {a : Fin Double.ordinals}
    (h : l.numeral.decimal.nearest = a) : l.value = .finite false a := by
  rw [value, Decimal.toDouble, h, Double.ofOrdinal_fin]

/-- A literal without an exponent spells what it denotes. -/
theorem Literal.Spells.of_none {l : Literal} {d : Decimal} (m : Nat) (h : l.exponent = none)
    (hd : l.numeral.decimal = d.padded m) : l.Spells d none where
  decimal := ⟨0, m, by rw [Decimal.padded_zero, hd]⟩
  exponent_eq := by rw [h, Option.map_none]
  explicit := by
    rw [h]
    nofun

/-- What a literal spells rounds to the same ordinal as the literal. -/
theorem Literal.Spells.nearest_eq {l : Literal} {d : Decimal} {e : Option Int}
    (h : l.Spells d e) : l.numeral.decimal.nearest = d.nearest := by
  obtain ⟨n, m, hpadded⟩ := h.decimal
  rw [← Decimal.nearest_padded _ n, hpadded, Decimal.nearest_padded]

namespace Double

variable (ds : Digits) {point : Int}

theorem exists_spells_of_nonpos (h : point ≤ 0) : ∃ l : Literal,
    writtenOut ds.1 point = l.text ∧ l.Spells (ds.decimalAt point) none := by
  refine ⟨⟨.ofNat 0, some (.zeros (-point).toNat ds), none⟩, ?_, .of_none 0 rfl ?_⟩
  · rw [writtenOut, if_pos h]
    simp [Literal.text, Literal.fractionText, Literal.exponentText, Digits.ofNat, Digits.zeros]
  · have hvalue := Digits.value_zeros (-point).toNat ds
    simp only [Digits.value, Digits.zeros] at hvalue
    simp only [Literal.numeral, Numeral.decimal, Digits.decimalAt, Digits.ofNat, Digits.zeros,
      Option.elim_some, Option.elim_none, Nat.toDigits_zero, List.cons_append, List.nil_append,
      Nat.ofDigitChars_cons, Decimal.padded_zero, Decimal.mk.injEq, Digits.value]
    refine ⟨by simpa using hvalue, ?_⟩
    simp only [List.length_append, List.length_replicate]
    omega

theorem exists_spells_of_length_le (h : ¬ point ≤ 0) (hlen : ds.1.length ≤ point.toNat) :
    ∃ l : Literal, writtenOut ds.1 point = l.text ∧ l.Spells (ds.decimalAt point) none := by
  -- the zeros before the point and the one behind it do not change the number
  refine ⟨⟨ds.padded (point.toNat - ds.1.length), some (.ofNat 0), none⟩, ?_,
    .of_none (point.toNat - ds.1.length + 1) rfl ?_⟩
  · rw [writtenOut, if_neg h, if_pos hlen]
    simp [Literal.text, Literal.fractionText, Literal.exponentText, Digits.ofNat, Digits.padded]
  · have hvalue := Digits.value_padded ds (point.toNat - ds.1.length + 1)
    simp only [Digits.value, Digits.padded, List.replicate_succ'] at hvalue
    simp only [Literal.numeral, Numeral.decimal, Digits.padded, Digits.ofNat, Option.elim_some,
      Option.elim_none, Nat.toDigits_zero, Digits.decimalAt, Decimal.padded, Decimal.mk.injEq,
      List.length_singleton, Digits.value]
    refine ⟨by simpa using hvalue, ?_⟩
    omega

theorem exists_spells_of_lt_length (h : ¬ point ≤ 0) (hlen : ¬ ds.1.length ≤ point.toNat) :
    ∃ l : Literal, writtenOut ds.1 point = l.text ∧ l.Spells (ds.decimalAt point) none := by
  have htake : ds.1.take point.toNat ≠ [] := by
    rw [Ne, List.take_eq_nil_iff]
    rintro (hz | hz)
    · omega
    · exact ds.2.1 hz
  have hdrop : ds.1.drop point.toNat ≠ [] := by
    rw [Ne, List.drop_eq_nil_iff]
    exact hlen
  refine ⟨⟨⟨_, htake, fun c hc => ds.2.2 c (List.mem_of_mem_take hc)⟩,
    some ⟨_, hdrop, fun c hc => ds.2.2 c (List.mem_of_mem_drop hc)⟩, none⟩, ?_, .of_none 0 rfl ?_⟩
  · rw [writtenOut, if_neg h, if_neg hlen]
    simp [Literal.text, Literal.fractionText, Literal.exponentText]
  · simp only [Literal.numeral, Numeral.decimal, Digits.decimalAt, Digits.value, Option.elim_some,
      Option.elim_none, List.take_append_drop, List.length_drop, Decimal.padded_zero,
      Decimal.mk.injEq, true_and]
    omega

/-- The exponent of a number is written as an exponent of a literal, with a sign and at least two
digits. -/
theorem exists_exponent (e : Int) :
    ∃ x : Literal.Exponent, 'e' :: exponentText e = x.text ∧ x.value = e ∧
      x.sign.isSome = true ∧ 2 ≤ x.digits.1.length := by
  refine ⟨⟨false, some (if e < 0 then .minus else .plus),
    .zeros (2 - (Nat.toDigits 10 e.natAbs).length) (.ofNat e.natAbs)⟩, ?_, ?_, rfl, ?_⟩
  · rw [exponentText, Literal.Exponent.text]
    split <;> rfl
  · rcases Int.lt_or_le e 0 with he | he
    · have hsign : some (if e < 0 then Sign.minus else .plus) = some .minus := by rw [if_pos he]
      rw [Literal.Exponent.value, if_pos hsign, Digits.value_zeros, Digits.value_ofNat]
      omega
    · have hsign : some (if e < 0 then Sign.minus else .plus) ≠ some .minus := by
        rw [if_neg (Int.not_lt.mpr he)]
        decide
      rw [Literal.Exponent.value, if_neg hsign, Digits.value_zeros, Digits.value_ofNat]
      omega
  · simp only [Digits.zeros, Digits.ofNat, List.length_append, List.length_replicate]
    omega

theorem exists_spells_withExponent (point : Int) : ∃ l : Literal,
    withExponent ds.1 point = l.text ∧ l.Spells (ds.decimalAt point) (some (point - 1)) := by
  obtain ⟨x, htext, hvalue, hexplicit⟩ := exists_exponent (point - 1)
  have hspells : ∀ l : Literal, l.exponent = some x → l.numeral.decimal = ds.decimalAt point →
      l.Spells (ds.decimalAt point) (some (point - 1)) := by
    intro l hx hl
    refine ⟨⟨0, 0, by rw [hl]⟩, by rw [hx, Option.map_some, hvalue], ?_⟩
    rw [hx]
    rintro _ ⟨⟩
    exact hexplicit
  obtain ⟨ds, hne, hds⟩ := ds
  cases ds with
  | nil => exact absurd rfl hne
  | cons c cs =>
    obtain ⟨hc, hcs⟩ := List.forall_mem_cons.mp hds
    have hwhole : ∀ d ∈ [c], d.isDigit = true := by simpa using hc
    cases cs with
    | nil =>
      refine ⟨⟨⟨[c], by simp, hwhole⟩, none, some x⟩, ?_, hspells _ rfl ?_⟩
      · simp [withExponent, htext, Literal.text, Literal.fractionText, Literal.exponentText]
      · simp [Literal.numeral, Numeral.decimal, Digits.decimalAt, Digits.value, hvalue]
    | cons d cs =>
      refine ⟨⟨⟨[c], by simp, hwhole⟩, some ⟨d :: cs, by simp, hcs⟩, some x⟩, ?_, hspells _ rfl ?_⟩
      · simp [withExponent, htext, Literal.text, Literal.fractionText, Literal.exponentText]
      · simp only [Literal.numeral, Numeral.decimal, Digits.decimalAt, Digits.value,
          Option.elim_some, hvalue, List.singleton_append, Decimal.mk.injEq, true_and,
          List.length_cons]
        omega

/-- The exponent that a number is written with, if it is not written out. -/
def writtenExponent (point : Int) : Option Int :=
  if -4 < point ∧ point ≤ 16 then none else some (point - 1)

theorem exists_spells_layout (point : Int) : ∃ l : Literal,
    layout ds.1 point = l.text ∧ l.Spells (ds.decimalAt point) (writtenExponent point) := by
  unfold layout writtenExponent
  simp only [Bool.and_eq_true, decide_eq_true_eq]
  split
  · by_cases hpoint : point ≤ 0
    · exact exists_spells_of_nonpos ds hpoint
    · by_cases hlen : ds.1.length ≤ point.toNat
      · exact exists_spells_of_length_le ds hpoint hlen
      · exact exists_spells_of_lt_length ds hpoint hlen
  · exact exists_spells_withExponent ds point

theorem exists_spells_decimalText {d : Decimal} (hd : 0 < d.coefficient) : ∃ l : Literal,
    decimalText d = l.text ∧ l.Spells d (writtenExponent d.point) := by
  obtain ⟨ds, z, hds, hvalue, hlen⟩ := exists_significant hd
  obtain ⟨l, htext, hl⟩ := exists_spells_layout ds d.point
  have hpadded : (ds.decimalAt d.point).padded z = d := by
    obtain ⟨c, k⟩ := d
    simp only [Digits.decimalAt, Decimal.padded, Decimal.point, hlen, ← hvalue, Decimal.mk.injEq,
      true_and]
    omega
  obtain ⟨n, m, hdecimal⟩ := hl.decimal
  refine ⟨l, by rw [decimalText, hds, htext], ⟨n + z, m, ?_⟩, hl.exponent_eq, hl.explicit⟩
  rw [← Decimal.padded_padded, hdecimal, Decimal.padded_padded, Nat.add_comm,
    ← Decimal.padded_padded, hpadded]

/-- The shortest decimal of a positive magnitude is not zero. -/
theorem coefficient_shortest_pos {a : Nat} (ha : 0 < a) (ha' : a < ordinals) :
    0 < (shortest a).coefficient := by
  have hshort := nearest_shortest ha ha'
  refine Nat.pos_of_ne_zero fun hc => ?_
  rw [Decimal.nearest, hc] at hshort
  simp only [decide_true, Bool.true_or, if_true] at hshort
  omega

/-- The text of a positive magnitude spells its shortest decimal. -/
theorem exists_spells_magnitudeText {a : Nat} (ha : 0 < a) (ha' : a < ordinals) : ∃ l : Literal,
    magnitudeText a = l.text ∧ l.Spells (shortest a) (writtenExponent (shortest a).point) := by
  rw [magnitudeText, if_neg (Nat.ne_of_gt ha)]
  exact exists_spells_decimalText (coefficient_shortest_pos ha ha')

/-- **The text of a magnitude reads back**: it is a literal with the value of the magnitude. -/
theorem exists_literal (a : Fin ordinals) :
    ∃ l : Literal, magnitudeText a = l.text ∧ l.value = finite false a := by
  obtain ⟨a, ha⟩ := a
  rcases Nat.eq_zero_or_pos a with rfl | hpos
  · exact ⟨⟨.ofNat 0, some (.ofNat 0), none⟩, rfl, Literal.value_of_nearest (show _ = 0 by decide)⟩
  · obtain ⟨l, htext, hl⟩ := exists_spells_magnitudeText hpos ha
    exact ⟨l, htext,
      Literal.value_of_nearest (hl.nearest_eq.trans (nearest_shortest hpos ha))⟩

end Double

end Reckoner
