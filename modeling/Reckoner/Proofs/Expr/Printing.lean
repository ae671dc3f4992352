import Reckoner.Proofs.Double.Layout
import Reckoner.Proofs.Double.Shortest
import Reckoner.Proofs.Expr.Rendering

/-!
# Printed numbers

The text of a finite number is a literal that prints its magnitude (`Literal.Prints`), behind a
hyphen if the sign bit is set. The literal is the shortest one that is read as the magnitude, and
its size decides whether it has an exponent (`Double.exists_prints`).

Main statement: the tokens of the text are the number again, and the hyphen if there is one
(`Expr.tokens_description_number`).
-/

namespace Reckoner

namespace Literal

variable {l : Literal} {a : Fin Double.ordinals}

/-- What a literal spells is the number that it denotes. -/
theorem Spells.rational_eq {d : Decimal} {e : Option Int} (h : l.Spells d e) :
    l.rational = d.rational := by
  obtain ⟨n, m, hpadded⟩ := h.decimal
  rw [← l.rational_decimal, ← Decimal.rational_padded _ n, hpadded, Decimal.rational_padded]

/-- A literal that rounds to an ordinal is read as it. -/
theorem value_of_rounds (h : Double.Rounds l.rational a) : l.value = .finite false a := by
  rw [← l.rational_decimal, ← Decimal.nearest_eq_iff a.2] at h
  exact value_of_nearest h

/-- A literal **prints** a magnitude when it is read as the magnitude and denotes a shortest number
for it. It is written out from `0.0001` on and below `10 ^ 16`, and with an exponent otherwise, the
whole part then being a single digit. -/
structure Prints (l : Literal) (a : Fin Double.ordinals) : Prop where
  value_eq : l.value = .finite false a
  shortest : Double.IsShortest a l.rational
  writtenOut : l.exponent = none →
    l.rational = 0 ∨ 10 ^ (-4 : ℤ) ≤ l.rational ∧ l.rational < 10 ^ 16
  withExponent : ∀ e ∈ l.exponent, (e.value < -4 ∨ 16 ≤ e.value) ∧
    e.sign.isSome = true ∧ 2 ≤ e.digits.1.length ∧
    10 ^ e.value ≤ l.rational ∧ l.rational < 10 ^ (e.value + 1)

/-- A literal that spells the shortest decimal of a magnitude, and has an exponent only if the
decimal needs one, prints the magnitude. -/
theorem Spells.prints (ha : 0 < a.1)
    (h : l.Spells (Double.shortest a) (Double.writtenExponent (Double.shortest a).point)) :
    l.Prints a := by
  have hshortest := Double.isShortest_shortest ha a.2
  have hlow := Decimal.le_rational (Double.coefficient_shortest_pos ha a.2)
  have hhigh := (Double.shortest a).rational_lt
  have hexponent := h.exponent_eq
  rw [← h.rational_eq] at hshortest hlow hhigh
  unfold Double.writtenExponent at hexponent
  generalize (Double.shortest a).point = point at hlow hhigh hexponent
  refine ⟨value_of_rounds hshortest.rounds, hshortest, fun hnone => .inr ?_, fun e he => ?_⟩
  · rw [hnone, Option.map_none] at hexponent
    split at hexponent
    · next hpoint =>
      refine ⟨le_trans (zpow_le_zpow_right₀ (by norm_num) (by omega)) hlow, ?_⟩
      calc l.rational < 10 ^ point := hhigh
        _ ≤ 10 ^ (16 : ℤ) := zpow_le_zpow_right₀ (by norm_num) hpoint.2
        _ = 10 ^ 16 := rfl
    · cases hexponent
  · rw [Option.mem_def.mp he, Option.map_some] at hexponent
    split at hexponent
    · cases hexponent
    · next hpoint =>
      have hvalue : e.value = point - 1 := Option.some.inj hexponent
      obtain ⟨hsign, hdigits⟩ := h.explicit e he
      refine ⟨by omega, hsign, hdigits, ?_, ?_⟩
      · rwa [hvalue]
      · rwa [hvalue, sub_add_cancel]

end Literal

namespace Double

/-- Zero is a shortest number for zero. -/
theorem isShortest_zero : IsShortest 0 0 where
  rounds := by
    have h := rounds_magnitude 0
    rwa [magnitude_zero] at h
  fits n r _ _ := ⟨0, 0, Nat.pow_pos (by decide), by rw [Nat.cast_zero, zero_mul]⟩
  nearest r _ _ := by
    rw [magnitude_zero, sub_zero, abs_zero]
    exact abs_nonneg _

/-- **The text of a magnitude is a literal that prints it.** -/
theorem exists_prints (a : Fin ordinals) :
    ∃ l : Literal, magnitudeText a = l.text ∧ l.Prints a := by
  obtain ⟨a, ha⟩ := a
  rcases Nat.eq_zero_or_pos a with rfl | hpos
  · have hrational : (⟨.ofNat 0, some (.ofNat 0), none⟩ : Literal).rational = 0 := by
      rw [← Literal.rational_decimal, Decimal.rational]
      exact zero_mul _
    have hshortest := hrational.symm ▸ isShortest_zero
    exact ⟨_, rfl, Literal.value_of_rounds (a := ⟨0, ha⟩) hshortest.rounds, hshortest,
      fun _ => .inl hrational, fun e he => absurd he (Option.not_mem_none e)⟩
  · obtain ⟨l, htext, hl⟩ := exists_spells_magnitudeText hpos ha
    exact ⟨l, htext, hl.prints hpos⟩

end Double

namespace Cursor

/-- A literal alone is one token, with the end behind it. -/
theorem tokens_ofChars_literal (s p : Nat) (l : Literal) :
    (Cursor.mk s p (Text.ofChars l.text)).tokens =
      [⟨p, .number l.value⟩, ⟨(p + l.text.length : Nat), .finish⟩] := by
  have h := tokens_literal (s := s) (p := p) s l Text.StopsNumber.nil
  rwa [List.append_nil, tokens_nil] at h

end Cursor

namespace Expr

variable {x : Double}

/-- A finite number is written as a literal that prints its magnitude, behind a hyphen if the sign
bit is set. -/
theorem exists_description_number (hx : x.isFinite = true) :
    ∃ (a : Fin Double.ordinals) (l : Literal), x = .finite x.isSignSet a ∧ l.Prints a ∧
      (number x).description = Text.ofChars ((if x.isSignSet then ['-'] else []) ++ l.text) := by
  cases x with
  | finite s a =>
    obtain ⟨l, htext, hl⟩ := Double.exists_prints a
    refine ⟨a, l, rfl, hl, ?_⟩
    rw [← htext]
    rfl
  | infinite => cases hx
  | nan => cases hx

/-- **Printed numbers are read back as they are.** The text of a finite number whose sign bit is
clear is a single token, with this number as its value. If the sign bit is set, which it is for one
of the zeros, too, it is a hyphen and a token with the opposite number as its value. The text is a
literal, but for the hyphen: the shortest one that is read as the number, with an exponent exactly
if the number is small or large. -/
theorem tokens_description_number (hx : x.isFinite = true) :
    (x.isSignSet = false → (number x).description.tokens =
      [⟨0, .number x⟩, ⟨(number x).description.length, .finish⟩]) ∧
    (x.isSignSet = true → (number x).description.tokens =
      [⟨0, .operator .subtraction⟩, ⟨1, .number (-x)⟩,
        ⟨(number x).description.length, .finish⟩]) ∧
    ∃ (a : Fin Double.ordinals) (l : Literal), x = .finite x.isSignSet a ∧ l.Prints a ∧
      (number x).description = Text.ofChars ((if x.isSignSet then ['-'] else []) ++ l.text) := by
  obtain ⟨a, l, hxa, hl, htext⟩ := exists_description_number hx
  refine ⟨fun hs => ?_, fun hs => ?_, a, l, hxa, hl, htext⟩
  · have hvalue : l.value = x := by rw [hl.value_eq, hxa, hs]
    rw [hs] at htext
    have htext : (number x).description = Text.ofChars l.text := htext
    calc (number x).description.tokens
        = [⟨0, .number l.value⟩, ⟨(0 + l.text.length : Nat), .finish⟩] := by
          rw [htext]
          exact Cursor.tokens_ofChars_literal 0 0 l
      _ = [⟨0, .number x⟩, ⟨(number x).description.length, .finish⟩] := by
          rw [htext, hvalue, Text.length_ofChars, Nat.zero_add]
  · have hvalue : l.value = -x := by rw [hl.value_eq, hxa, hs]; rfl
    rw [hs] at htext
    have htext : (number x).description = .scalar '-' :: Text.ofChars l.text := htext
    calc (number x).description.tokens
        = ⟨0, .operator .subtraction⟩ :: (Cursor.mk 0 1 (Text.ofChars l.text)).tokens := by
          rw [htext]
          exact Cursor.tokens_terminal 0 rfl rfl
      _ = [⟨0, .operator .subtraction⟩, ⟨1, .number (-x)⟩,
            ⟨(number x).description.length, .finish⟩] := by
          rw [Cursor.tokens_ofChars_literal, htext, hvalue, List.length_cons, Text.length_ofChars,
            Nat.add_comm]
          rfl

/-- The negative of the least positive double. -/
theorem tokens_description_number_least :
    (number (.finite true ⟨1, by decide⟩)).description = "-5e-324" ∧
      ("-5e-324" : Text).tokens = [⟨0, .operator .subtraction⟩,
        ⟨1, .number (.finite false ⟨1, by decide⟩)⟩, ⟨7, .finish⟩] := by
  have htext : (number (.finite true ⟨1, by decide⟩)).description = "-5e-324" := by decide +kernel
  have h := (tokens_description_number (x := .finite true ⟨1, by decide⟩) rfl).2.1 rfl
  rw [htext] at h
  exact ⟨htext, h⟩

end Expr

end Reckoner
