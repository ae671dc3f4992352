import Reckoner.Proofs.Double.Integer
import Reckoner.Proofs.Double.Layout
import Reckoner.Proofs.Json.Number

/-!
# Doubles in documents

A double is written into a document as it is written everywhere, and the text of a finite one is a
number of the JSON grammar with a fraction or an exponent (`Double.exists_number`): its digits begin
with a zero only in front of the point. The infinities have words of their own. So every double
other than a NaN is read back (`Json.parse_doubleLiteral`).
-/

namespace Reckoner

namespace Double

/-! ### How digits begin -/

/-- A positive number is written without a zero in front. -/
theorem exists_toDigits_eq_cons {n : Nat} (hn : 0 < n) :
    ∃ c cs, Nat.toDigits 10 n = c :: cs ∧ c ≠ '0' := by
  induction n using Nat.strongRecOn with
  | ind n ih =>
    by_cases hsmall : n < 10
    · refine ⟨_, [], Nat.toDigits_of_lt_base hsmall, ?_⟩
      rw [Ne, Nat.digitChar_eq_zero]
      omega
    · obtain ⟨c, cs, hcs, hc⟩ := ih (n / 10) (by omega) (by omega)
      refine ⟨c, cs ++ [(n % 10).digitChar], ?_, hc⟩
      rw [Nat.toDigits_of_base_le (by decide) (by omega), hcs, List.cons_append]

/-- Taking the zeros off the end does not change how digits begin. -/
theorem exists_significant_eq_cons {c : Char} (cs : List Char) (hc : c ≠ '0') :
    ∃ ds, significant (c :: cs) = c :: ds := by
  obtain ⟨z, hz⟩ := exists_significant_append (c :: cs)
  cases hs : significant (c :: cs) with
  | nil =>
    rw [hs, List.nil_append] at hz
    exact absurd (List.eq_of_mem_replicate (hz ▸ List.mem_cons_self)) hc
  | cons d ds =>
    rw [hs] at hz
    exact ⟨ds, by rw [(List.cons.inj hz).1]⟩

/-! ### How texts begin -/

/-- A text is **shown** as a double when it is more than digits, and begins with a zero only in
front of a point. -/
def Shows (cs : List Char) : Prop :=
  (∃ c ∈ cs, c.isDigit = false) ∧ ∀ ds, cs = '0' :: ds → ds.head? = some '.'

variable {c : Char} {cs : List Char} {point : Int}

theorem shows_writtenOut (hc : c ≠ '0') : Shows (writtenOut (c :: cs) point) := by
  unfold writtenOut
  split
  · refine ⟨⟨'.', by simp, rfl⟩, ?_⟩
    rintro _ ⟨⟩
    rfl
  · split
    · refine ⟨⟨'.', by simp, rfl⟩, ?_⟩
      rintro _ ⟨⟩
      exact absurd rfl hc
    · next hpoint _ =>
      refine ⟨⟨'.', by simp, rfl⟩, ?_⟩
      obtain ⟨n, hn⟩ : ∃ n, point.toNat = n + 1 := ⟨point.toNat - 1, by omega⟩
      rw [hn]
      rintro _ ⟨⟩
      exact absurd rfl hc

theorem shows_withExponent (hc : c ≠ '0') : Shows (withExponent (c :: cs) point) := by
  refine ⟨⟨'e', by simp [withExponent], rfl⟩, ?_⟩
  rintro _ ⟨⟩
  exact absurd rfl hc

/-- The text of a magnitude is shown as a double. -/
theorem shows_magnitudeText (a : Fin ordinals) : Shows (magnitudeText a) := by
  unfold magnitudeText
  split
  · refine ⟨⟨'.', by simp, rfl⟩, ?_⟩
    rintro _ ⟨⟩
    rfl
  · next hzero =>
    obtain ⟨c, cs, hcs, hc⟩ :=
      exists_toDigits_eq_cons (coefficient_shortest_pos (Nat.pos_of_ne_zero hzero) a.2)
    obtain ⟨ds, hds⟩ := exists_significant_eq_cons cs hc
    rw [decimalText, hcs, hds, layout]
    split
    · exact shows_writtenOut hc
    · exact shows_withExponent hc

/-- A literal that is shown as a double has the zero in front of the point for its whole part. -/
theorem eq_zero_of_shows {l : Literal} (hl : Shows l.text) (h : l.whole.1.head? = some '0') :
    l.whole.1 = ['0'] := by
  obtain ⟨ds, hds⟩ : ∃ ds, l.whole.1 = '0' :: ds := List.head?_eq_some_iff.mp h
  cases ds with
  | nil => exact hds
  | cons d ds =>
    have hpoint := hl.2 (d :: ds ++ (l.fractionText ++ l.exponentText))
      (by rw [Literal.text, hds]; rfl)
    have hdigit : d.isDigit = true := l.whole.2.2 d (by simp [hds])
    obtain rfl : d = '.' := Option.some.inj hpoint
    cases hdigit

/-! ### Reading doubles -/

/-- **The text of a finite double is a JSON number** that is read as this double. -/
theorem exists_number (negative : Bool) (a : Fin ordinals) : ∃ j : Json.Number,
    j.text = (finite negative a).text ∧ j.datum = .double (finite negative a) := by
  obtain ⟨l, hl, hvalue⟩ := exists_literal a
  have hshows : Shows l.text := hl ▸ shows_magnitudeText a
  obtain ⟨j, rfl, rfl⟩ : ∃ j : Json.Number, j.negative = negative ∧ j.literal = l :=
    ⟨⟨negative, l, eq_zero_of_shows hshows⟩, rfl, rfl⟩
  have hinteger : j.isInteger = false := by
    refine Bool.eq_false_iff.mpr fun hinteger => ?_
    obtain ⟨hfraction, hexponent⟩ := j.isInteger_iff.mp hinteger
    obtain ⟨c, hc, hdigit⟩ := hshows.1
    rw [Literal.text, hfraction, hexponent, List.append_nil, List.append_nil] at hc
    rw [j.literal.whole.2.2 c hc] at hdigit
    cases hdigit
  refine ⟨j, ?_, ?_⟩
  · rw [Json.Number.text, text, hl]
  · rw [Json.Number.datum, if_neg (Bool.eq_false_iff.mp hinteger)]
    congr 1
    cases j.negative with
    | true => exact (Decimal.toDouble_true _).trans (congrArg Neg.neg hvalue)
    | false => exact hvalue

end Double

/-- An infinity is read as the word for it. -/
theorem Json.exists_word?_infinite (negative : Bool) :
    ∃ l, word? .standard (doubleLiteral (.infinite negative)) = some l ∧
      l.1 = .ok (.double (.infinite negative)) ∧ l.2.1 = [] := by
  cases negative with
  | true => exact ⟨_, rfl, rfl, rfl⟩
  | false => exact ⟨_, rfl, rfl, rfl⟩

/-- **A double other than a NaN is read as it was written.** -/
theorem Json.parse_doubleLiteral {x : Double} (hx : ∀ p, x ≠ .nan p) :
    Json.parse .standard (doubleLiteral x) = .ok (.double x) := by
  cases x with
  | finite negative a =>
    obtain ⟨j, htext, hdatum⟩ := Double.exists_number negative a
    rw [doubleLiteral, ← htext, j.parse_text, hdatum]
  | infinite negative =>
    obtain ⟨l, hword, hdatum, hrest⟩ := exists_word?_infinite negative
    have hhead : ∀ c ∈ (doubleLiteral (.infinite negative)).head?,
        c = .scalar 'I' ∨ c = .scalar '-' := by
      cases negative with
      | true =>
        rintro _ ⟨⟩
        exact .inr rfl
      | false =>
        rintro _ ⟨⟩
        exact .inl rfl
    refine parse_of_gives (fun c hc => ?_) ?_
    · rcases hhead c hc with rfl | rfl <;> exact ⟨rfl, by decide⟩
    · rw [read_value fun c hc => ?_, hword]
      · exact Literal.gives_reading hdatum hrest
      · rcases hhead c hc with rfl | rfl <;> decide
  | nan p => exact absurd rfl (hx p)

end Reckoner
