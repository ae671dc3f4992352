import Reckoner.Proofs.Double.Reading
import Reckoner.Proofs.Token.Lexeme

/-!
# Numbers are read by maximal munch

Where a digit begins a token, the scanner takes the longest beginning of the input that is also the
beginning of some literal (`Text.Munch`), and does not go back from there. If what it took is a
literal, the token is a number with the value of that literal. Otherwise it is an error behind what
was taken, and the last character tells which digit is missing.

The machine of the scanner knows literals by their beginnings: it follows a text to some stage if
and only if the text goes on to a literal (`Text.beginsLiteral_iff_follow?`), and to a stage at
which no digit is missing if and only if the text is one (`Text.isLiteral_iff_completes`). What is
missing depends on the last character only (`Stage.missing?_of_next?`).

Main statement: `Cursor.StandsIn.next_munch`.
-/

namespace Reckoner

/-! ### Beginnings of literals -/

namespace Text

/-- The text of a literal. -/
def IsLiteral (m : Text) : Prop := ∃ l : Literal, m = ofChars l.text

/-- A text that some literal begins with. -/
def BeginsLiteral (m : Text) : Prop := ∃ l : Literal, m <+: ofChars l.text

/-- The **munch** of a text: the longest of its beginnings that some literal begins with. -/
structure Munch (m t : Text) : Prop where
  begins_text : m <+: t
  begins_literal : m.BeginsLiteral
  length_le : ∀ m' : Text, m' <+: t → m'.BeginsLiteral → m'.length ≤ m.length

/-- A text has one munch. -/
theorem Munch.unique {m m' t : Text} (h : Munch m t) (h' : Munch m' t) : m = m' :=
  List.IsPrefix.eq_of_length
    (List.prefix_of_prefix_length_le h.begins_text h'.begins_text
      (h'.length_le m h.begins_text h.begins_literal))
    (Nat.le_antisymm (h'.length_le m h.begins_text h.begins_literal)
      (h.length_le m' h'.begins_text h'.begins_literal))

end Text

/-! ### What the machine follows -/

/-- What is missing behind a character of this class, if a number ends there. -/
def DigitClass.missing? : DigitClass → Option LexicalError.Kind
  | point => some .noDigitAfterPoint
  | exponent | sign => some .noDigitAfterE
  | digit | other => none

namespace Stage

variable {s s' : Stage} {t : Text}

/-- What is missing at a stage depends on the character that led to it. -/
theorem missing?_of_next? {k : DigitClass} (h : s.next? k = some s') : s'.missing? = k.missing? := by
  cases s <;> cases k <;> cases h <;> rfl

/-- A digit can follow at every stage. -/
theorem exists_next?_digit (s : Stage) : ∃ s', s.next? .digit = some s' := by
  cases s <;> exact ⟨_, rfl⟩

/-- The first digit of a number leads from the first stage to itself. -/
theorem follow?_cons_digit {first : CodePoint} (hfirst : first.isDigit = true) (t : Text) :
    integer.follow? (first :: t) = integer.follow? t := by
  have hclass : first.digitClass = .digit := by simp [CodePoint.digitClass, hfirst]
  rw [follow?, hclass]
  rfl

/-- What is missing behind a text depends on its last character. -/
theorem missing?_of_follow? {c : CodePoint} (h : s.follow? (t ++ [c]) = some s') :
    s'.missing? = c.digitClass.missing? := by
  rw [follow?_append] at h
  obtain ⟨s₁, -, hs₁⟩ := Option.bind_eq_some_iff.mp h
  obtain ⟨s₂, hs₂, hs'⟩ := Option.bind_eq_some_iff.mp hs₁
  cases hs'
  exact missing?_of_next? hs₂

/-- The scanner takes what the machine follows, and goes on from there. -/
theorem taken_of_follow? (h : s.follow? t = some s') (r : Text) :
    (s.scan (t ++ r)).taken = t ++ (s'.scan r).taken := by
  induction t generalizing s with
  | nil =>
    cases h
    rfl
  | cons c t ih =>
    obtain ⟨s₁, hs₁, ht⟩ := Option.bind_eq_some_iff.mp h
    rw [List.cons_append, scan, hs₁]
    exact congrArg _ (ih ht)

end Stage

namespace Text

variable {first : CodePoint} {t : Text}

theorem isLiteral_iff_completes (hfirst : first.isDigit = true) :
    IsLiteral (first :: t) ↔ Stage.integer.Completes t := by
  refine ⟨?_, Stage.exists_literal_of_completes hfirst⟩
  rintro ⟨l, hl⟩
  refine ⟨l.stage, ?_, l.missing?_stage⟩
  rw [← Stage.follow?_cons_digit hfirst, hl, Stage.follow?_literal]

/-- **The machine follows what some literal begins with**, and nothing else. -/
theorem beginsLiteral_iff_follow? (hfirst : first.isDigit = true) :
    BeginsLiteral (first :: t) ↔ ∃ s, Stage.integer.follow? t = some s := by
  constructor
  · rintro ⟨l, r, hr⟩
    have hfollow := Stage.follow?_literal l
    rw [← hr, Stage.follow?_append, Stage.follow?_cons_digit hfirst] at hfollow
    obtain ⟨s, hs, -⟩ := Option.bind_eq_some_iff.mp hfollow
    exact ⟨s, hs⟩
  · rintro ⟨s, hs⟩
    -- one more digit makes a literal of it
    obtain ⟨s', hs'⟩ := s.exists_next?_digit
    have hcomplete : Stage.integer.Completes (t ++ [.scalar '0']) := by
      refine ⟨s', ?_, Stage.missing?_of_next? hs'⟩
      rw [Stage.follow?_append, hs]
      exact congrArg (Option.bind · some) hs'
    obtain ⟨l, hl⟩ := Stage.exists_literal_of_completes hfirst hcomplete
    exact ⟨l, [.scalar '0'], hl⟩

/-- **What the scanner takes is the munch.** -/
theorem munch_taken (hfirst : first.isDigit = true) (t : Text) :
    Munch (first :: (Stage.integer.scan t).taken) (first :: t) := by
  refine ⟨⟨(Stage.integer.scan t).rest, ?_⟩, ?_, ?_⟩
  · rw [List.cons_append, Stage.taken_append_rest]
  · exact (beginsLiteral_iff_follow? hfirst).mpr ⟨_, Stage.integer.follow?_taken t⟩
  · intro m hm hbegins
    cases m with
    | nil => exact Nat.zero_le _
    | cons c m =>
      obtain ⟨rfl, r, rfl⟩ := List.cons_prefix_cons.mp hm
      obtain ⟨s, hs⟩ := (beginsLiteral_iff_follow? hfirst).mp hbegins
      rw [Stage.taken_of_follow? hs, List.length_cons, List.length_cons, List.length_append]
      omega

end Text

/-! ### What is missing, by the last character -/

theorem CodePoint.missing?_eq_noDigitAfterPoint_iff {c : CodePoint} :
    c.digitClass.missing? = some .noDigitAfterPoint ↔ c = .scalar '.' := by
  constructor
  · intro h
    cases hc : c.digitClass <;> rw [hc] at h <;> cases h
    have hhas := c.has_digitClass
    rw [hc] at hhas
    cases hhas
    rfl
  · rintro rfl
    rfl

theorem CodePoint.missing?_eq_noDigitAfterE_iff {c : CodePoint} :
    c.digitClass.missing? = some .noDigitAfterE ↔
      c ∈ Text.ofChars ['e', 'E', '+', '-'] := by
  constructor
  · intro h
    have hhas := c.has_digitClass
    cases hc : c.digitClass <;> rw [hc] at h hhas <;> cases h <;> cases hhas
    · next capital => cases capital <;> decide
    · next sign => cases sign <;> decide
  · have hall : ∀ c ∈ Text.ofChars ['e', 'E', '+', '-'],
        c.digitClass.missing? = some .noDigitAfterE := by decide
    exact hall c

/-! ### The token -/

namespace Cursor

variable {start : Nat} {first : CodePoint} {t : Text}

/-- If the scanner took a literal, a number with its value is read. -/
theorem number_of_taken_eq {l : Literal} (hfirst : first.isDigit = true)
    (hl : first :: (Stage.integer.scan t).taken = Text.ofChars l.text) :
    (number start first t).1 = ⟨start, .number l.value⟩ := by
  obtain ⟨s, hs, hmissing⟩ := (Text.isLiteral_iff_completes hfirst).mp ⟨l, hl⟩
  obtain rfl : (Stage.integer.scan t).stage = s :=
    Option.some.inj ((Stage.integer.follow?_taken t).symm.trans hs)
  simp only [number, hmissing, hl, Numeral.decimalOf_literal]
  rfl

/-- If the scanner took anything else, an error is read, and the last character that was taken tells
which. -/
theorem number_of_not_isLiteral (hfirst : first.isDigit = true)
    (h : ¬Text.IsLiteral (first :: (Stage.integer.scan t).taken)) :
    ∃ kind c, (first :: (Stage.integer.scan t).taken).getLast? = some c ∧
      c.digitClass.missing? = some kind ∧
      (number start first t).1 = ⟨(number start first t).2.position,
        .error ⟨kind, (number start first t).2.position, none⟩⟩ := by
  have hfollow := Stage.integer.follow?_taken t
  rcases number_cases start first t with ⟨hmissing, -⟩ | ⟨kind, hmissing, -, hnumber⟩
  · exact absurd ((Text.isLiteral_iff_completes hfirst).mpr ⟨_, hfollow, hmissing⟩) h
  · rcases List.eq_nil_or_concat (Stage.integer.scan t).taken with hnil | ⟨u, c, hu⟩
    -- behind the first digit alone nothing is missing
    · rw [hnil] at hfollow
      rw [← Option.some.inj hfollow] at hmissing
      cases hmissing
    · rw [hu, List.concat_eq_append] at hfollow
      refine ⟨kind, c, ?_, ?_, hnumber⟩
      · rw [hu, List.concat_eq_append, ← List.cons_append, List.getLast?_concat]
      · rw [← Stage.missing?_of_follow? hfollow, hmissing]

namespace StandsIn

variable {c : Cursor} {s : Text}

/-- Where the token that is read begins with a digit, a number is read. -/
theorem exists_next_eq_number (h : c.StandsIn s) (hf : c.next.1.terminal.isFinish = false)
    (hfirst : s[c.next.2.start]? = some first) (hd : first.isDigit = true) :
    ∃ t, s.drop c.next.2.start = first :: t ∧ c.next = number c.next.2.start first t := by
  rcases c.next_cases with ⟨-, -, -, hnext⟩ | ⟨blanks, first', t, hrest, -, -, hnext⟩
  · rw [hnext] at hf
    cases hf
  · have hstart : c.next.2.start = c.position + blanks.length := by
      rw [hnext]
      exact (tokenAt_token _ first' t).start_eq
    have hdrop : s.drop (c.position + blanks.length) = first' :: t := by
      rw [← List.drop_drop, ← h.rest_eq, hrest, List.drop_left]
    obtain rfl : first' = first := by
      rw [hstart, ← List.head?_drop, hdrop] at hfirst
      exact Option.some.inj hfirst
    exact ⟨t, by rw [hstart, hdrop], by rw [hstart, hnext, token_of_isDigit hd]⟩

/-- **The scanner accepts exactly the literals, by maximal munch.** Wherever a token begins with a
digit, the munch `m` of the input from there on is taken, and nothing of it is given back. A number
is read if and only if `m` is a literal; it stands where the digit does, and its value is the double
nearest to the number that `m` denotes, however that is spelled. Otherwise an error is read, which
stands behind `m` and says which digit is missing there. -/
theorem next_munch (h : c.StandsIn s) (hf : c.next.1.terminal.isFinish = false)
    (hfirst : s[c.next.2.start]? = some first) (hd : first.isDigit = true) :
    ∃ m, Text.Munch m (s.drop c.next.2.start) ∧
      c.next.2.position = c.next.2.start + m.length ∧
      ((∃ x, c.next.1.terminal = .number x) ↔ m.IsLiteral) ∧
      (∀ l : Literal, m = Text.ofChars l.text →
        c.next.1 = ⟨c.next.2.start, .number l.value⟩ ∧
        Double.IsNearest l.rational l.value ∧
        (l.value = .infinite false ↔ 2 ^ 1024 - 2 ^ 970 ≤ l.rational) ∧
        (l.value = .zero false ↔ l.rational ≤ Double.magnitude 1 / 2) ∧
        ∀ l' : Literal, l'.rational = l.rational → l'.value = l.value) ∧
      (¬m.IsLiteral → ∃ kind, kind ≠ .invalidCharacter ∧
        c.next.1 = ⟨(c.next.2.start + m.length : Nat),
          .error ⟨kind, (c.next.2.start + m.length : Nat), none⟩⟩ ∧
        (kind = .noDigitAfterPoint ↔ m.getLast? = some (.scalar '.')) ∧
        (kind = .noDigitAfterE ↔
          ∃ letter ∈ Text.ofChars ['e', 'E', '+', '-'], m.getLast? = some letter)) := by
  obtain ⟨t, hdrop, hnext⟩ := h.exists_next_eq_number hf hfirst hd
  generalize c.next.2.start = start at hdrop hnext ⊢
  have hposition : (number start first t).2.position =
      start + (first :: (Stage.integer.scan t).taken).length := by
    rw [snd_number, List.length_cons]
    dsimp only
    omega
  rw [hnext, hdrop]
  refine ⟨first :: (Stage.integer.scan t).taken, Text.munch_taken hd t, hposition, ⟨?_, ?_⟩, ?_, ?_⟩
  · rintro ⟨x, hx⟩
    obtain ⟨l, hl, -⟩ := exists_literal_of_number hd hx
    exact ⟨l, hl⟩
  · rintro ⟨l, hl⟩
    exact ⟨l.value, by rw [number_of_taken_eq hd hl]⟩
  · intro l hl
    exact ⟨number_of_taken_eq hd hl, l.isNearest_value, l.value_eq_infinite_iff,
      l.value_eq_zero_iff, fun l' h => Literal.value_congr h⟩
  · intro hliteral
    obtain ⟨kind, last, hlast, hmissing, herror⟩ := number_of_not_isLiteral hd hliteral
    have hkind : ∀ kind', kind = kind' ↔ last.digitClass.missing? = some kind' := by
      intro kind'
      rw [hmissing, Option.some.injEq]
    refine ⟨kind, ?_, ?_, ?_, ?_⟩
    · rintro rfl
      cases hk : last.digitClass <;> rw [hk] at hmissing <;> cases hmissing
    · rw [herror, hposition]
    · rw [hkind, CodePoint.missing?_eq_noDigitAfterPoint_iff, hlast, Option.some.injEq]
    · rw [hkind, CodePoint.missing?_eq_noDigitAfterE_iff, hlast]
      simp only [Option.some.injEq, exists_eq_right']

/-- The scanner does not go back to `1.5`, which is a literal. -/
theorem next_munch_broken :
    Text.Munch "1.5E-" "1.5E-x" ∧ ¬Text.IsLiteral "1.5E-" ∧
      (Cursor.ofText " 1.5E-x").next.1 = ⟨6, .error ⟨.noDigitAfterE, 6, none⟩⟩ := by
  have htoken : (Cursor.ofText " 1.5E-x").next.1 = ⟨6, .error ⟨.noDigitAfterE, 6, none⟩⟩ := rfl
  have hfirst : (" 1.5E-x" : Text)[(Cursor.ofText " 1.5E-x").next.2.start]? =
      some (.scalar '1') := rfl
  obtain ⟨m, hm, hposition, hnumber, -, -⟩ :=
    (StandsIn.ofText " 1.5E-x").next_munch rfl hfirst rfl
  have hlength : m.length = 5 := Nat.add_left_cancel (n := 1) hposition.symm
  obtain rfl : m = "1.5E-" := by
    rw [List.prefix_iff_eq_take.mp hm.begins_text, hlength]
    rfl
  refine ⟨hm, fun hliteral => ?_, htoken⟩
  obtain ⟨x, hx⟩ := hnumber.mpr hliteral
  rw [htoken] at hx
  cases hx

end StandsIn

end Cursor

end Reckoner
