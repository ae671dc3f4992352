import Reckoner.Proofs.Token.Lexeme

/-!
# Tokens of texts with blanks between them

A lexer that starts `k` characters further on reads the same tokens, `k` characters further on
(`Cursor.tokens_shifted`), for it looks at nothing but the rest of the input. Blanks end every token:
no number goes on with one, and no token holds one (`Text.isBlank_of_mem_lexeme`). So lexing takes
texts with blanks between them to lists of tokens, one behind the other.

Main statement: `Text.tokens_blanks_between`.
-/

namespace Reckoner

/-! ### Tokens further on -/

/-- The same error, `k` characters further on. -/
def LexicalError.shifted (k : Nat) (e : LexicalError) : LexicalError :=
  { e with position := e.position + k }

/-- The same terminal, `k` characters further on. Only an error holds a position. -/
def Terminal.shifted (k : Nat) : Terminal → Terminal
  | error e => error (e.shifted k)
  | t => t

/-- The same token, `k` characters further on. -/
def Token.shifted (k : Nat) (t : Token) : Token := ⟨t.position + k, t.terminal.shifted k⟩

@[simp] theorem Terminal.isFinish_shifted (k : Nat) (t : Terminal) :
    (t.shifted k).isFinish = t.isFinish := by
  cases t <;> rfl

/-- A terminal that is no error is the same everywhere. -/
theorem Terminal.shifted_of_error? {t : Terminal} (h : t.error? = none) (k : Nat) :
    t.shifted k = t := by
  cases t with
  | error => cases h
  | _ => rfl

/-- A character that is a terminal is the same terminal everywhere. -/
theorem Terminal.shifted_of_terminal? {c : CodePoint} {t : Terminal} (h : c.terminal? = some t)
    (k : Nat) : t.shifted k = t := by
  rcases CodePoint.terminal?_cases h with rfl | rfl | ⟨o, rfl⟩ <;> rfl

namespace Cursor

/-- A cursor with the same rest of the input, `k` characters further on. -/
def shifted (k : Nat) (c : Cursor) : Cursor := ⟨c.start + k, c.position + k, c.rest⟩

theorem skipBlanks_shifted (k : Nat) (c : Cursor) :
    (c.shifted k).skipBlanks = c.skipBlanks.shifted k := by
  obtain ⟨start, p, rest⟩ := c
  cases hn : rest.takeWhile CodePoint.isBlank with
  | nil => simp [skipBlanks, shifted, hn]
  | cons blank blanks =>
    simp only [skipBlanks, shifted, hn, List.length_cons, Nat.succ_ne_zero, if_false,
      Cursor.mk.injEq, and_true]
    omega

theorem number_shifted (k start : Nat) (first : CodePoint) (t : Text) :
    number (start + k) first t =
      ((number start first t).1.shifted k, (number start first t).2.shifted k) := by
  have hfinish : ∀ n, start + k + 1 + n = start + 1 + n + k := fun n => by omega
  simp only [number, hfinish]
  cases (Stage.integer.scan t).stage.missing? with
  | none => simp [Token.shifted, Terminal.shifted, shifted]
  | some kind => simp [Token.shifted, Terminal.shifted, LexicalError.shifted, shifted]

theorem token_shifted (k start : Nat) (first : CodePoint) (t : Text) :
    token (start + k) first t =
      ((token start first t).1.shifted k, (token start first t).2.shifted k) := by
  unfold token
  cases hk : first.terminal? with
  | some t =>
    simp [Token.shifted, Terminal.shifted_of_terminal? hk, shifted, Nat.add_right_comm]
  | none =>
    cases hd : first.isDigit with
    | true => exact number_shifted k start first t
    | false =>
      simp [Token.shifted, Terminal.shifted, LexicalError.shifted, shifted, Nat.add_right_comm]

/-- **Reading does not depend on where the input stands.** -/
theorem next_shifted (k : Nat) (c : Cursor) :
    (c.shifted k).next = (c.next.1.shifted k, c.next.2.shifted k) := by
  unfold next
  rw [skipBlanks_shifted]
  cases hrest : c.skipBlanks.rest with
  | nil => simp [shifted, hrest, Token.shifted, Terminal.shifted]
  | cons first t => simp [shifted, hrest, token_shifted]

theorem tokens_shifted (k : Nat) (c : Cursor) :
    (c.shifted k).tokens = c.tokens.map (Token.shifted k) := by
  fun_induction tokens c with
  | case1 c h =>
    have hf : (c.shifted k).next.1.terminal.isFinish = true := by
      rw [next_shifted]
      exact (Terminal.isFinish_shifted k _).trans h
    rw [tokens_of_isFinish hf, next_shifted]
    rfl
  | case2 c h ih =>
    have hf : (c.shifted k).next.1.terminal.isFinish = false := by
      rw [next_shifted]
      exact (Terminal.isFinish_shifted k _).trans (by simpa using h)
    rw [tokens_eq_cons hf, next_shifted, ih]
    rfl

/-- The tokens from a place on are those of the text that is left, further on. -/
theorem tokens_mk_eq_map (s p : Nat) (t : Text) :
    (Cursor.mk s p t).tokens = t.tokens.map (Token.shifted p) := by
  rw [Text.tokens, ← tokens_shifted, shifted, ofText, Nat.zero_add]
  exact tokens_mk s p p t

theorem terminals_mk_eq_map (s p : Nat) (t : Text) :
    (Cursor.mk s p t).tokens.map (·.terminal) = t.terminals.map (Terminal.shifted p) := by
  rw [tokens_mk_eq_map, Text.terminals, List.map_map, List.map_map]
  rfl

end Cursor

/-! ### Blanks between tokens -/

/-- A blank does not go on with a number. -/
theorem CodePoint.digitClass_of_isBlank {c : CodePoint} (h : c.isBlank = true) :
    c.digitClass = .other := by
  cases c with
  | surrogate => cases h
  | scalar c =>
    simp only [isBlank, Bool.or_eq_true, decide_eq_true_eq] at h
    rcases h with rfl | rfl <;> rfl

namespace Text

variable {s u v b : Text} {i : Nat}

/-- **No token holds a blank.** -/
theorem isBlank_of_mem_lexeme (h : (s.call i).1.terminal.isFinish = false) :
    ∀ c ∈ s.lexeme i, c.isBlank = false := by
  obtain ⟨start, first, t, taken, hfirst, hcall, ht, hlexeme⟩ := exists_lexeme_eq h
  rw [hlexeme]
  refine List.forall_mem_cons.mpr ⟨hfirst, fun c hc => ?_⟩
  rw [hcall] at ht
  cases hd : first.isDigit with
  | false =>
    rw [taken_of_not_isDigit hd ht] at hc
    cases hc
  | true =>
    rw [taken_of_isDigit hd ht] at hc
    have hclass := Stage.digitClass_ne_other (Stage.integer.follow?_taken t) c hc
    exact Bool.eq_false_iff.mpr fun hb => hclass (CodePoint.digitClass_of_isBlank hb)

/-- **Lexing takes texts with blanks between them to tokens, one list behind the other.** The tokens
of the first text are those that it has alone, without the end, and the tokens of the second one are
those that it has alone, further on. No token holds a blank. -/
theorem tokens_blanks_between (u v : Text) (hb : b ≠ []) (hblank : ∀ c ∈ b, c.isBlank = true) :
    (∃ ks, u.tokens = ks ++ [⟨u.length, .finish⟩] ∧
      (u ++ b ++ v).tokens = ks ++ v.tokens.map (Token.shifted (u.length + b.length))) ∧
    ∀ i, ((u ++ b ++ v).call i).1.terminal.isFinish = false →
      ∀ c ∈ (u ++ b ++ v).lexeme i, c.isBlank = false := by
  obtain ⟨ks, -, hu, hmore⟩ := (Cursor.ofText u).exists_tokens_extended
  rw [Cursor.finish_ofText] at hu hmore
  have hstop : (b ++ v).StopsNumber := by
    cases b with
    | nil => exact absurd rfl hb
    | cons blank b =>
      exact .cons (CodePoint.digitClass_of_isBlank (hblank blank List.mem_cons_self)) _
  refine ⟨⟨ks, hu, ?_⟩, fun i => isBlank_of_mem_lexeme⟩
  calc (u ++ b ++ v).tokens
      = ((Cursor.ofText u).extended (b ++ v)).tokens := by rw [List.append_assoc]; rfl
    _ = ks ++ (Cursor.mk 0 u.length (b ++ v)).tokens := hmore _ hstop 0
    _ = ks ++ (Cursor.mk 0 (u.length + b.length) v).tokens := by
        rw [Cursor.tokens_blanks_append 0 hblank]
    _ = ks ++ v.tokens.map (Token.shifted (u.length + b.length)) := by
        rw [Cursor.tokens_mk_eq_map]

/-- The sign and the digit would go on with the number, were it not for the blanks. -/
theorem tokens_blanks_between_broken :
    ∃ ks, ("1e" : Text).tokens = ks ++ [⟨2, .finish⟩] ∧
      ("1e \t+2" : Text).tokens = ks ++ ("+2" : Text).tokens.map (Token.shifted 4) :=
  (tokens_blanks_between (b := " \t") "1e" "+2" (by decide) (by decide)).1

end Text

end Reckoner
