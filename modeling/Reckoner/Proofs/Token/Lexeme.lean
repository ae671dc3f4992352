import Reckoner.Proofs.Token.Extension

/-!
# The stretches that numbers are read from

The scanner stops at a stage where no digit is missing only behind a literal: what the machine
follows to such a stage can be taken apart into the parts of a literal, from the last one to the
first (`Stage.exists_literal_of_completes`). So a token of a number stands for a literal and has its
value (`Text.exists_literal_of_call`).
-/

namespace Reckoner

/-! ### Characters by their class -/

/-- The characters of a class, as the parts of a literal have them. -/
inductive DigitClass.Has : DigitClass → CodePoint → Prop where
  | digit {d : Char} (h : d.isDigit = true) : Has .digit (.scalar d)
  | point : Has .point (.scalar '.')
  | exponent (capital : Bool) : Has .exponent (.scalar (if capital then 'E' else 'e'))
  | sign (s : Sign) : Has .sign (.scalar s.symbol)
  | other (c : CodePoint) : Has .other c

theorem CodePoint.has_digitClass (c : CodePoint) : c.digitClass.Has c := by
  unfold digitClass
  split
  · next hd =>
    cases c with
    | scalar d => exact .digit hd
    | surrogate => cases hd
  · simp only [Bool.or_eq_true, decide_eq_true_eq]
    split
    · next hc => exact hc ▸ .point
    · split
      · next hc =>
        rcases hc with rfl | rfl
        · exact .exponent false
        · exact .exponent true
      · split
        · next hc =>
          rcases hc with rfl | rfl
          · exact .sign .plus
          · exact .sign .minus
        · exact .other c

/-! ### The ends of literals -/

namespace Stage

/-- A text **completes** a number from a stage on when the machine follows it to a stage at which no
digit is missing. -/
def Completes (s : Stage) (t : Text) : Prop := ∃ s', s.follow? t = some s' ∧ s'.missing? = none

variable {s : Stage} {t : Text}

theorem completes_cons {c : CodePoint} (h : s.Completes (c :: t)) :
    ∃ k s', k.Has c ∧ s.next? k = some s' ∧ s'.Completes t := by
  obtain ⟨s₂, hfollow, hmissing⟩ := h
  obtain ⟨s₁, hs₁, ht⟩ := Option.bind_eq_some_iff.mp hfollow
  exact ⟨_, s₁, c.has_digitClass, hs₁, s₂, ht, hmissing⟩

/-- Where a digit is missing, one more character is needed. -/
theorem exists_cons_of_completes (hs : s.missing?.isSome) (h : s.Completes t) :
    ∃ c u k s', t = c :: u ∧ k.Has c ∧ s.next? k = some s' ∧ s'.Completes u := by
  cases t with
  | nil =>
    obtain ⟨s', hs', hmissing⟩ := h
    cases hs'
    rw [hmissing] at hs
    cases hs
  | cons c u =>
    obtain ⟨k, s', hk, hs', hu⟩ := completes_cons h
    exact ⟨c, u, k, s', rfl, hk, hs', hu⟩

/-- The digits of an exponent go on with digits only. -/
theorem exists_digits_of_completes (h : exponentDigits.Completes t) :
    ∃ ds : List Char, t = Text.ofChars ds ∧ ∀ c ∈ ds, c.isDigit = true := by
  induction t with
  | nil => exact ⟨[], rfl, nofun⟩
  | cons c t ih =>
    obtain ⟨k, s', hk, hs', ht⟩ := completes_cons h
    cases hk with
    | digit hd =>
      cases hs'
      obtain ⟨ds, rfl, hds⟩ := ih ht
      exact ⟨_ :: ds, rfl, List.forall_mem_cons.mpr ⟨hd, hds⟩⟩
    | _ => cases hs'

/-- Digits that begin with a given one, and go on as those of an exponent. -/
theorem exists_digits_cons {d : Char} (hd : d.isDigit = true) (h : exponentDigits.Completes t) :
    ∃ ds : Digits, .scalar d :: t = Text.ofChars ds.1 := by
  obtain ⟨ds, rfl, hds⟩ := exists_digits_of_completes h
  exact ⟨⟨d :: ds, nofun, List.forall_mem_cons.mpr ⟨hd, hds⟩⟩, rfl⟩

/-- Behind the letter of an exponent there is maybe a sign, and there are digits. -/
theorem exists_exponent_of_completes (capital : Bool) (h : exponent.Completes t) :
    ∃ e : Literal.Exponent,
      .scalar (if capital then 'E' else 'e') :: t = Text.ofChars e.text := by
  obtain ⟨c, u, k, s', rfl, hk, hs', hu⟩ := exists_cons_of_completes rfl h
  cases hk with
  | digit hd =>
    cases hs'
    obtain ⟨ds, hds⟩ := exists_digits_cons hd hu
    exact ⟨⟨capital, none, ds⟩, by rw [hds]; rfl⟩
  | sign sign =>
    cases hs'
    obtain ⟨c, v, k, s', rfl, hk, hs', hv⟩ := exists_cons_of_completes rfl hu
    cases hk with
    | digit hd =>
      cases hs'
      obtain ⟨ds, hds⟩ := exists_digits_cons hd hv
      exact ⟨⟨capital, some sign, ds⟩, by rw [hds]; rfl⟩
    | _ => cases hs'
  | _ => cases hs'

/-- Behind a digit of the fraction there are digits, and maybe an exponent. -/
theorem exists_fraction_of_completes (h : fraction.Completes t) :
    ∃ (ds : List Char) (e : Option Literal.Exponent), (∀ c ∈ ds, c.isDigit = true) ∧
      t = Text.ofChars (ds ++ e.elim [] Literal.Exponent.text) := by
  induction t with
  | nil => exact ⟨[], none, nofun, rfl⟩
  | cons c t ih =>
    obtain ⟨k, s', hk, hs', ht⟩ := completes_cons h
    cases hk with
    | digit hd =>
      cases hs'
      obtain ⟨ds, e, hds, rfl⟩ := ih ht
      exact ⟨_ :: ds, e, List.forall_mem_cons.mpr ⟨hd, hds⟩, rfl⟩
    | exponent capital =>
      cases hs'
      obtain ⟨e, he⟩ := exists_exponent_of_completes capital ht
      exact ⟨[], some e, nofun, he⟩
    | _ => cases hs'

/-- Behind a digit of the whole part there are digits, maybe a fraction, and maybe an exponent. -/
theorem exists_whole_of_completes (h : integer.Completes t) :
    ∃ (ds : List Char) (f : Option Digits) (e : Option Literal.Exponent),
      (∀ c ∈ ds, c.isDigit = true) ∧
      t = Text.ofChars (ds ++ (f.elim [] (fun ds => '.' :: ds.1) ++
        e.elim [] Literal.Exponent.text)) := by
  induction t with
  | nil => exact ⟨[], none, none, nofun, rfl⟩
  | cons c t ih =>
    obtain ⟨k, s', hk, hs', ht⟩ := completes_cons h
    cases hk with
    | digit hd =>
      cases hs'
      obtain ⟨ds, f, e, hds, rfl⟩ := ih ht
      exact ⟨_ :: ds, f, e, List.forall_mem_cons.mpr ⟨hd, hds⟩, rfl⟩
    | point =>
      cases hs'
      obtain ⟨c, u, k, s', rfl, hk, hs', hu⟩ := exists_cons_of_completes rfl ht
      cases hk with
      | digit hd =>
        cases hs'
        obtain ⟨ds, e, hds, rfl⟩ := exists_fraction_of_completes hu
        exact ⟨[], some ⟨_ :: ds, nofun, List.forall_mem_cons.mpr ⟨hd, hds⟩⟩, e, nofun, rfl⟩
      | _ => cases hs'
    | exponent capital =>
      cases hs'
      obtain ⟨e, he⟩ := exists_exponent_of_completes capital ht
      exact ⟨[], none, some e, nofun, he⟩
    | _ => cases hs'

/-- **What completes a number behind its first digit is the rest of a literal.** -/
theorem exists_literal_of_completes {first : CodePoint} (hfirst : first.isDigit = true)
    (h : integer.Completes t) : ∃ l : Literal, first :: t = Text.ofChars l.text := by
  cases first with
  | surrogate => cases hfirst
  | scalar d =>
    obtain ⟨ds, f, e, hds, rfl⟩ := exists_whole_of_completes h
    exact ⟨⟨⟨d :: ds, nofun, List.forall_mem_cons.mpr ⟨hfirst, hds⟩⟩, f, e⟩, rfl⟩

end Stage

/-! ### Tokens of numbers -/

namespace Cursor

/-- Where a number is read, a digit stands. -/
theorem isDigit_of_token {start : Nat} {first : CodePoint} {t : Text} {x : Double}
    (h : (token start first t).1.terminal = .number x) : first.isDigit = true := by
  unfold token at h
  split at h
  · next k hk =>
    obtain rfl : k = .number x := h
    rcases CodePoint.terminal?_cases hk with hparen | hparen | ⟨o, hoperator⟩
    · cases hparen
    · cases hparen
    · cases hoperator
  · split at h
    · assumption
    · cases h

/-- A number is read from a literal. -/
theorem exists_literal_of_number {start : Nat} {first : CodePoint} {t : Text} {x : Double}
    (hfirst : first.isDigit = true) (h : (number start first t).1.terminal = .number x) :
    ∃ l : Literal, first :: (Stage.integer.scan t).taken = Text.ofChars l.text ∧ x = l.value := by
  have hcomplete : Stage.integer.Completes (Stage.integer.scan t).taken := by
    refine ⟨_, Stage.integer.follow?_taken t, ?_⟩
    rcases number_cases start first t with ⟨hmissing, -⟩ | ⟨kind, -, -, hnumber⟩
    · exact hmissing
    · rw [hnumber] at h
      cases h
  obtain ⟨l, hl⟩ := Stage.exists_literal_of_completes hfirst hcomplete
  refine ⟨l, hl, ?_⟩
  unfold number at h
  dsimp only at h
  split at h
  · cases h
  · rw [hl, Numeral.decimalOf_literal] at h
    exact (Terminal.number.inj h).symm

end Cursor

namespace Text

/-- The stretch of a text that call number `i` reads its token from. -/
def lexeme (s : Text) (i : Nat) : Text :=
  (s.drop (s.call i).2.start).take ((s.call i).2.position - (s.call i).2.start)

variable {s : Text} {i : Nat}

/-- What is read is a character that is not blank, and what its token takes behind it. -/
theorem exists_lexeme_eq (h : (s.call i).1.terminal.isFinish = false) :
    ∃ start first t taken, first.isBlank = false ∧ s.call i = Cursor.token start first t ∧
      t = taken ++ (s.call i).2.rest ∧ s.lexeme i = first :: taken := by
  have hstands := (Cursor.StandsIn.ofText s).skip i
  rcases ((Cursor.ofText s).skip i).next_cases with
    ⟨-, -, -, hnext⟩ | ⟨blanks, first, t, hrest, -, hfirst, hnext⟩
  · rw [call, hnext] at h
    cases h
  have hread := Cursor.tokenAt_token (s.place i + blanks.length) first t
  have hcall : s.call i = Cursor.token (s.place i + blanks.length) first t := hnext
  rw [← hcall] at hread
  obtain ⟨taken, htaken, hposition⟩ := hread.taken
  refine ⟨_, first, t, taken, hfirst, hcall, htaken, ?_⟩
  have hdrop : s.drop (s.place i + blanks.length) = first :: (taken ++ (s.call i).2.rest) := by
    rw [place, ← List.drop_drop, ← hstands.rest_eq, hrest, List.drop_left, ← htaken]
  have hlength : ∀ p n : Nat, p + 1 + n - p = n + 1 := fun p n => by omega
  rw [lexeme, hposition, hread.start_eq, hdrop, hlength, List.take_succ_cons, List.take_left]

/-- A number takes what the scanner takes. -/
theorem taken_of_isDigit {start : Nat} {first : CodePoint} {t taken : Text}
    (hfirst : first.isDigit = true) (h : t = taken ++ (Cursor.token start first t).2.rest) :
    taken = (Stage.integer.scan t).taken := by
  rw [Cursor.token_of_isDigit hfirst, Cursor.snd_number] at h
  conv_lhs at h => rw [← Stage.integer.taken_append_rest t]
  exact (List.append_cancel_right h).symm

/-- A token that is no number takes nothing behind its character. -/
theorem taken_of_not_isDigit {start : Nat} {first : CodePoint} {t taken : Text}
    (hfirst : first.isDigit = false) (h : t = taken ++ (Cursor.token start first t).2.rest) :
    taken = [] := by
  have hrest : (Cursor.token start first t).2.rest = t := by
    unfold Cursor.token
    cases first.terminal? <;> simp [hfirst]
  rw [hrest] at h
  exact List.self_eq_append_left.mp h

/-- **A token of a number stands for a literal**, and has its value. -/
theorem exists_literal_of_call {x : Double} (h : (s.call i).1.terminal = .number x) :
    ∃ l : Literal, s.lexeme i = ofChars l.text ∧ x = l.value := by
  obtain ⟨start, first, t, taken, -, hcall, htaken, hlexeme⟩ :=
    exists_lexeme_eq (s := s) (i := i) (by rw [h]; rfl)
  rw [hcall] at h htaken
  have hd := Cursor.isDigit_of_token h
  rw [hlexeme, taken_of_isDigit hd htaken]
  rw [Cursor.token_of_isDigit hd] at h
  exact Cursor.exists_literal_of_number hd h

end Text

end Reckoner
