import Reckoner.Proofs.Json.Reading
import Reckoner.Proofs.Token.Literal

/-!
# Numbers in documents

The numbers of the JSON grammar are literals without needless zeros in front, behind an optional
hyphen (`Json.Number`). Where nothing goes on with such a number it is read to its end: as an exact
integer if it has neither a fraction nor an exponent, and as the nearest double otherwise
(`Json.Number.gives_read`).
-/

namespace Reckoner

/-- What can be part of a number is plain, and no blank. -/
theorem CodePoint.isPlain_of_digitClass {c : CodePoint} (h : c.digitClass ≠ .other) :
    c.isPlain = true ∧ c ≠ .scalar ' ' := by
  have hvalue : 0x20 ≤ c.value ∧ c.value ≤ 0x7E := by
    unfold digitClass at h
    split at h
    · next hd =>
      cases c with
      | surrogate => cases hd
      | scalar c =>
        obtain ⟨hlow, hhigh⟩ := Char.isDigit_iff_toNat.mp hd
        exact ⟨Nat.le_trans (by decide) hlow, Nat.le_trans hhigh (by decide)⟩
    · simp only [Bool.or_eq_true, decide_eq_true_eq] at h
      split at h
      · next hc => exact hc ▸ ⟨by decide, by decide⟩
      · split at h
        · next hc => rcases hc with rfl | rfl <;> exact ⟨by decide, by decide⟩
        · split at h
          · next hc => rcases hc with rfl | rfl <;> exact ⟨by decide, by decide⟩
          · exact absurd rfl h
  -- quotes, backslashes and blanks are no part of a number
  have hne : ∀ d : CodePoint, d.digitClass = .other → c ≠ d := by
    rintro d hd rfl
    exact h hd
  refine ⟨?_, hne _ rfl⟩
  simp only [isPlain, Bool.and_eq_true, decide_eq_true_eq]
  exact ⟨⟨hvalue, hne _ rfl⟩, hne _ rfl⟩

namespace Json

/-- A **number** of the JSON grammar: an optional hyphen and a literal, which begins with the digit
zero only if that is its whole part. -/
structure Number where
  negative : Bool
  literal : Reckoner.Literal
  eq_zero : literal.whole.1.head? = some '0' → literal.whole.1 = ['0']

namespace Number

/-- The text of a number. -/
def text (j : Number) : Text :=
  Text.ofChars ((if j.negative then ['-'] else []) ++ j.literal.text)

/-- Whether a number has neither a fraction nor an exponent. -/
def isInteger (j : Number) : Bool := j.literal.fraction.isNone && j.literal.exponent.isNone

/-- The whole part of a number with its sign. -/
def integer (j : Number) : Int :=
  if j.negative then -(j.literal.whole.value : Int) else j.literal.whole.value

/-- What a number is read as. -/
def datum (j : Number) : Datum :=
  if j.isInteger then .integer j.integer
  else .double (j.literal.numeral.decimal.toDouble j.negative)

variable (j : Number) {r : Text}

/-- The whole part is read to its end. -/
theorem integerDigits_append (hr : ∀ c ∈ r.head?, c.isDigit = false) :
    integerDigits (Text.ofChars j.literal.whole.1 ++ r) = (j.literal.whole.1, r) := by
  obtain ⟨negative, ⟨⟨ds, hne, hds⟩, fraction, exponent⟩, hzero⟩ := j
  dsimp only at hzero ⊢
  cases ds with
  | nil => exact absurd rfl hne
  | cons c cs =>
    by_cases hc : c = '0'
    · subst hc
      rw [hzero rfl]
      rfl
    · rw [integerDigits, Text.leadingDigits_append hds hr]
      rintro t ⟨⟩
      exact hc rfl

/-- A number is an integer exactly if nothing of it is behind its whole part. -/
theorem isInteger_iff : j.isInteger = true ↔
    j.literal.fractionText = [] ∧ j.literal.exponentText = [] := by
  obtain ⟨negative, ⟨whole, fraction, exponent⟩, hzero⟩ := j
  cases fraction <;> cases exponent <;>
    simp [isInteger, Literal.fractionText, Literal.exponentText, Literal.Exponent.text]

theorem isInteger_iff_length : j.isInteger = true ↔
    r.length = (Text.ofChars j.literal.fractionText ++
      (Text.ofChars j.literal.exponentText ++ r)).length := by
  rw [isInteger_iff, ← List.length_eq_zero_iff, ← List.length_eq_zero_iff, List.length_append,
    List.length_append, Text.length_ofChars, Text.length_ofChars]
  omega

theorem exists_unsignedNumber (literal : Text) (hr : r.StopsNumber) :
    ∃ l, unsignedNumber .standard j.negative literal (Text.ofChars j.literal.text ++ r) = some l ∧
      l.1 = .ok j.datum ∧ l.2.1 = r := by
  have htext : Text.ofChars j.literal.text ++ r = Text.ofChars j.literal.whole.1 ++
      (Text.ofChars j.literal.fractionText ++ (Text.ofChars j.literal.exponentText ++ r)) := by
    simp [Literal.text]
  have hdigits := j.integerDigits_append (Numeral.head?_fractionText j.literal hr)
  rw [← htext] at hdigits
  unfold unsignedNumber
  split
  · next h =>
    rw [hdigits] at h
    exact absurd (congrArg Prod.fst h) j.literal.whole.2.1
  · next d ds behind h =>
    rw [hdigits] at h
    obtain ⟨hwhole, rfl⟩ := Prod.mk.inj h
    refine ⟨_, rfl, ?_, ?_⟩
    · dsimp only
      rw [Numeral.readFraction_literal j.literal hr]
      dsimp only
      rw [Numeral.readExponent_literal j.literal hr]
      dsimp only
      rw [← hwhole, datum]
      split
      · next hlength =>
        rw [if_pos (j.isInteger_iff_length.mpr hlength)]
        rfl
      · next hlength =>
        rw [if_neg fun hinteger => hlength (j.isInteger_iff_length.mp hinteger)]
        rfl
    · dsimp only
      rw [Numeral.readFraction_literal j.literal hr]
      dsimp only
      rw [Numeral.readExponent_literal j.literal hr]

/-- A number begins with a digit, behind a hyphen if it is negative. -/
theorem text_cases : ∃ c cs, c.isDigit = true ∧ Text.ofChars j.literal.text = .scalar c :: cs ∧
    (j.negative = true ∧ j.text = .scalar '-' :: .scalar c :: cs ∨
      j.negative = false ∧ j.text = .scalar c :: cs) := by
  obtain ⟨c, cs, hcs, hc⟩ := j.literal.exists_text_eq_cons
  refine ⟨c, Text.ofChars cs, hc, by rw [hcs, Text.ofChars_cons], ?_⟩
  cases hnegative : j.negative with
  | true => exact .inl ⟨rfl, by rw [text, hnegative, hcs]; rfl⟩
  | false => exact .inr ⟨rfl, by rw [text, hnegative, hcs]; rfl⟩

/-- No word begins like a number. -/
theorem word?_eq_none (hooks : Hooks) : word? hooks (j.text ++ r) = none := by
  refine Json.word?_eq_none fun w hw hprefix => ?_
  obtain ⟨c, d, cs, hword, hc, hd⟩ := exists_word_eq_cons hooks w hw
  obtain ⟨e, es, he, -, ⟨-, htext⟩ | ⟨-, htext⟩⟩ := j.text_cases
  · rw [hword, htext, Text.ofChars_cons, Text.ofChars_cons, List.cons_append, List.cons_append,
      List.cons_prefix_cons, List.cons_prefix_cons] at hprefix
    obtain ⟨-, ⟨⟩, -⟩ := hprefix
    rw [hd] at he
    cases he
  · rw [hword, htext, Text.ofChars_cons, List.cons_append, List.cons_prefix_cons] at hprefix
    obtain ⟨⟨⟩, -⟩ := hprefix
    rw [hc] at he
    cases he

/-- The reader of numbers takes a number with its sign, up to its end. -/
theorem gives_number (hr : r.StopsNumber) :
    (number .standard (j.text ++ r)).Gives j.datum r := by
  have hunsigned := j.exists_unsignedNumber (j.text ++ r) hr
  obtain ⟨c, cs, hc, hcs, ⟨hnegative, htext⟩ | ⟨hnegative, htext⟩⟩ := j.text_cases
  · have hsplit : j.text ++ r = .scalar '-' :: (Text.ofChars j.literal.text ++ r) := by
      rw [htext, hcs, List.cons_append]
    rw [hnegative, hsplit] at hunsigned
    obtain ⟨l, hl, hdatum, hrest⟩ := hunsigned
    rw [hsplit, number_hyphen hl]
    exact (Literal.gives_reading hdatum hrest).weaken _
  · have hsplit : j.text ++ r = Text.ofChars j.literal.text ++ r := by
      rw [htext, hcs]
    rw [hnegative, hsplit] at hunsigned
    obtain ⟨l, hl, hdatum, hrest⟩ := hunsigned
    have hhyphen : ∀ d ∈ (Text.ofChars j.literal.text ++ r).head?, d ≠ .scalar '-' := by
      rw [hcs]
      rintro _ ⟨⟩ ⟨⟩
      cases hc
    rw [hsplit, number_of_ne hhyphen hl]
    exact Literal.gives_reading hdatum hrest

/-- The first character of a number is a digit or a hyphen. -/
theorem head?_text {c : CodePoint} (hc : c ∈ (j.text ++ r).head?) :
    c.isDigit = true ∨ c = .scalar '-' := by
  obtain ⟨d, ds, hd, -, ⟨-, htext⟩ | ⟨-, htext⟩⟩ := j.text_cases
  · rw [htext] at hc
    exact .inr (Option.some.inj hc).symm
  · rw [htext] at hc
    exact .inl ((Option.some.inj hc) ▸ hd)

/-- **A number is read to its end** where a value is expected, and becomes its datum. -/
theorem gives_read (hr : r.StopsNumber) :
    (read .standard .value (j.text ++ r)).Gives j.datum r := by
  have hhead : ∀ c ∈ (j.text ++ r).head?,
      c ≠ .scalar '"' ∧ c ≠ .scalar '\x7b' ∧ c ≠ .scalar '[' := by
    intro c hc
    refine ⟨?_, ?_, ?_⟩
    all_goals
      rintro rfl
      rcases j.head?_text hc with h | h <;> cases h
  rw [read_value hhead, j.word?_eq_none]
  exact j.gives_number hr

/-- The characters of a number are plain, and none is a blank. -/
theorem isPlain_of_mem {c : CodePoint} (hc : c ∈ j.text) :
    c.isPlain = true ∧ c ≠ .scalar ' ' := by
  rw [text, Text.ofChars_append, List.mem_append] at hc
  rcases hc with hc | hc
  · cases hnegative : j.negative with
    | true =>
      rw [hnegative] at hc
      obtain rfl := List.mem_singleton.mp hc
      exact ⟨rfl, by decide⟩
    | false =>
      rw [hnegative] at hc
      cases hc
  · exact CodePoint.isPlain_of_digitClass (j.literal.digitClass_ne_other c hc)

/-- A document that is a number becomes its datum. -/
theorem parse_text : parse .standard j.text = .ok j.datum := by
  refine parse_of_gives (fun c hc => ?_) ?_
  · obtain ⟨hplain, hblank⟩ := j.isPlain_of_mem (List.mem_of_mem_head? hc)
    exact isSpace_eq_false hplain hblank
  · have hread := j.gives_read .nil
    rwa [List.append_nil] at hread

end Number

end Json

end Reckoner
