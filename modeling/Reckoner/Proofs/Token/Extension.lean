import Reckoner.Proofs.Token.Literal
import Reckoner.Proofs.Token.Tiling

/-!
# Tokens of a text that goes on

What becomes of the tokens of a text when more text follows it. Only a number at the very end of the
text can still change. If the text that follows does not go on with that number, all tokens in front
of the end stay what they are (`Cursor.exists_tokens_extended_of_stage`); otherwise all but the last
one do, and the last one goes on from its first digit (`Cursor.tokens_extended_cases`).
-/

namespace Reckoner

/-! ### Scanning on -/

namespace Stage

/-- A scanner that leaves nothing has taken everything. -/
theorem taken_of_rest {s : Stage} {t : Text} (h : (s.scan t).rest = []) : (s.scan t).taken = t := by
  have htaken := s.taken_append_rest t
  rwa [h, List.append_nil] at htaken

/-- The machine follows what the scanner takes. -/
theorem follow?_taken (s : Stage) (t : Text) :
    s.follow? (s.scan t).taken = some (s.scan t).stage := by
  induction t generalizing s with
  | nil => rfl
  | cons c t ih =>
    unfold scan
    split
    · rfl
    · next s' hs' => simp [follow?, hs', ih]

/-- The scanner stops in front of a character at which the machine does not go on. -/
theorem next?_rest (s : Stage) (t : Text) :
    ∀ c ∈ (s.scan t).rest.head?, (s.scan t).stage.next? c.digitClass = none := by
  induction t generalizing s with
  | nil => nofun
  | cons c t ih =>
    unfold scan
    split
    · next hs =>
      rintro _ ⟨⟩
      exact hs
    · exact ih _

/-- Text that follows is not looked at, unless the scanner reaches it and it goes on with the
number. -/
theorem scan_append {s : Stage} {t w : Text} (h : (s.scan t).rest ≠ [] ∨
    ∀ c ∈ w.head?, (s.scan t).stage.next? c.digitClass = none) :
    s.scan (t ++ w) = ⟨(s.scan t).stage, (s.scan t).taken, (s.scan t).rest ++ w⟩ := by
  have hsplit : t ++ w = (s.scan t).taken ++ ((s.scan t).rest ++ w) := by
    rw [← List.append_assoc, taken_append_rest]
  have hstop := s.next?_rest t
  conv_lhs => rw [hsplit]
  refine scan_of_follow? (s.follow?_taken t) fun c hc => ?_
  cases hrest : (s.scan t).rest with
  | cons d r =>
    rw [hrest] at hc hstop
    exact hstop c hc
  | nil =>
    rw [hrest] at hc
    exact h.resolve_left (fun hne => hne hrest) c hc

end Stage

namespace Cursor

variable {c : Cursor} {w : Text}

/-- The same place in an input that goes on with more text. -/
def extended (c : Cursor) (w : Text) : Cursor := ⟨c.start, c.position, c.rest ++ w⟩

/-- The index at which the input ends. -/
def finish (c : Cursor) : Nat := c.position + c.rest.length

theorem finish_ofText (s : Text) : (Cursor.ofText s).finish = s.length := Nat.zero_add _

/-- A token is not changed by text that follows, unless it is a number that reaches it. -/
theorem token_append {start : Nat} {first : CodePoint} {t : Text}
    (h : first.isDigit = false ∨ (token start first t).2.rest ≠ [] ∨
      ∀ c ∈ w.head?, (Stage.integer.scan t).stage.next? c.digitClass = none) :
    token start first (t ++ w) =
      ((token start first t).1, (token start first t).2.extended w) := by
  unfold token at h ⊢
  cases hk : first.terminal? with
  | some k => rfl
  | none =>
    rw [hk] at h
    cases hd : first.isDigit with
    | false => rfl
    | true =>
      rw [hd] at h
      have hscan := Stage.scan_append (s := .integer) (h.resolve_left nofun)
      simp only [if_true, number, hscan]
      rfl

/-- Where a digit begins a token, it is a number. -/
theorem token_of_isDigit {first : CodePoint} (h : first.isDigit = true) (start : Nat) (t : Text) :
    token start first t = number start first t := by
  simp [token, CodePoint.terminal?_of_isDigit h, h]

/-- A number leaves what the scanner leaves. -/
theorem snd_number (start : Nat) (first : CodePoint) (t : Text) :
    (number start first t).2 = ⟨start, start + 1 + (Stage.integer.scan t).taken.length,
      (Stage.integer.scan t).rest⟩ := rfl

/-- Blanks are skipped. -/
theorem tokens_blanks_append {s p : Nat} (s' : Nat) {blanks : Text}
    (h : ∀ b ∈ blanks, b.isBlank = true) (t : Text) :
    (Cursor.mk s p (blanks ++ t)).tokens = (Cursor.mk s' (p + blanks.length) t).tokens := by
  induction blanks generalizing s p with
  | nil => exact tokens_mk s s' p t
  | cons b blanks ih =>
    obtain ⟨hb, hblanks⟩ := List.forall_mem_cons.mp h
    rw [List.cons_append, tokens_blank s hb, ih hblanks, List.length_cons]
    congr 2
    omega

/-- Where nothing is left the end is the only token. -/
theorem tokens_of_rest (h : c.rest = []) : c.tokens = [⟨c.position, .finish⟩] := by
  obtain ⟨s, p, rest⟩ := c
  obtain rfl : rest = [] := h
  exact tokens_nil

/-- All tokens of a text that ends at index `finish` but the last one can be **settled**: they are
not the end, and no number among them breaks off where the text ends. -/
def Settled (finish : Nat) (ks : List Token) : Prop :=
  ∀ k ∈ ks, k.terminal.isFinish = false ∧
    ∀ e, k.terminal = .error e → e.kind ≠ .invalidCharacter → e.position < finish

theorem Settled.nil {finish : Nat} : Settled finish [] := nofun

/-- **What text that follows can change.** Either it becomes tokens behind those in front of the
end, or the last of them is a number at the very end, and goes on from its first digit. -/
theorem tokens_extended_cases (c : Cursor) :
    ∃ ks, Settled c.finish ks ∧
      ((c.tokens = ks ++ [⟨c.finish, .finish⟩] ∧
          ∀ w s', (c.extended w).tokens = ks ++ (Cursor.mk s' c.finish w).tokens) ∨
        ∃ p first t, first.isDigit = true ∧ (Stage.integer.scan t).rest = [] ∧
          p + 1 + t.length = c.finish ∧
          c.tokens = ks ++ [(number p first t).1, ⟨c.finish, .finish⟩] ∧
          ∀ w s', (c.extended w).tokens =
            ks ++ (Cursor.mk s' p (first :: (t ++ w))).tokens) := by
  fun_induction tokens c with
  | case1 c h =>
    rcases c.next_cases with ⟨hblank, -, -, hnext⟩ | ⟨blanks, first, t, -, -, -, hnext⟩
    · refine ⟨[], .nil, .inl ⟨by rw [hnext]; rfl, fun w s' => ?_⟩⟩
      exact tokens_blanks_append s' hblank w
    · rw [hnext, (tokenAt_token _ first t).not_finish] at h
      cases h
  | case2 c h ih =>
    rcases c.next_cases with ⟨-, -, -, hnext⟩ | ⟨blanks, first, t, hrest, hblank, hfirst, hnext⟩
    · rw [hnext] at h
      exact absurd rfl h
    have hextended : ∀ w,
        (c.extended w).next = token (c.position + blanks.length) first (t ++ w) := by
      intro w
      rw [extended, hrest, List.append_assoc, List.cons_append]
      exact next_blanks_append hblank hfirst
    have ht := tokenAt_token (c.position + blanks.length) first t
    obtain ⟨taken, htaken, hposition⟩ := ht.taken
    have hfinish : c.next.2.finish = c.finish := by
      rw [finish, finish, hnext, hposition, hrest, List.length_append, List.length_cons]
      conv_rhs => rw [htaken, List.length_append]
      omega
    by_cases hreach : first.isDigit = true ∧ c.next.2.rest = []
    -- a number that reaches the end is the last token
    · obtain ⟨hd, hnil⟩ := hreach
      have hnumber : c.next = number (c.position + blanks.length) first t := by
        rw [hnext, token_of_isDigit hd]
      have hscan : (Stage.integer.scan t).rest = [] := by rwa [hnumber] at hnil
      refine ⟨[], .nil, .inr ⟨c.position + blanks.length, first, t, hd, hscan, ?_, ?_, ?_⟩⟩
      · rw [finish, hrest, List.length_append, List.length_cons]
        omega
      · have hend : c.next.2.position = c.finish := by
          rw [← hfinish, finish, hnil]
          rfl
        rw [tokens_of_rest hnil, hend, hnumber]
        rfl
      · intro w s'
        rw [extended, hrest, List.append_assoc, List.cons_append,
          tokens_blanks_append s' hblank]
        rfl
    -- any other token is settled, and the rest of the text decides
    · have hread : ∀ w, (c.extended w).next = (c.next.1, c.next.2.extended w) := by
        intro w
        rw [hextended, hnext]
        refine token_append ?_
        rw [← hnext]
        cases hd : first.isDigit with
        | false => exact .inl rfl
        | true => exact .inr (.inl fun hnil => hreach ⟨hd, hnil⟩)
      have hf : c.next.1.terminal.isFinish = false := by simpa using h
      have hsettled : ∀ e, c.next.1.terminal = .error e → e.kind ≠ .invalidCharacter →
          e.position < c.finish := by
        intro e he hkind
        rw [hnext] at he
        have hbroken : (token (c.position + blanks.length) first t).1.terminal.isBrokenNumber =
            true := by
          rw [he]
          simpa [Terminal.isBrokenNumber] using hkind
        have hne : c.next.2.rest ≠ [] := fun hnil => hreach ⟨ht.isDigit hbroken, hnil⟩
        have hpos := List.length_pos_iff.mpr hne
        rw [(ht.error e he).1, ht.position_eq, if_pos hbroken, ← hnext, ← hfinish, finish]
        omega
      obtain ⟨ks, hks, hcases⟩ := ih
      rw [hfinish] at hks hcases
      refine ⟨c.next.1 :: ks, List.forall_mem_cons.mpr ⟨⟨hf, hsettled⟩, hks⟩, ?_⟩
      have htokens : ∀ w, (c.extended w).tokens = c.next.1 :: (c.next.2.extended w).tokens := by
        intro w
        rw [tokens_eq_cons (by rw [hread]; exact hf), hread]
      rcases hcases with ⟨hlast, hmore⟩ | ⟨p, digit, u, hd, hscan, hp, hlast, hmore⟩
      · refine .inl ⟨by rw [hlast]; rfl, fun w s' => ?_⟩
        rw [htokens, hmore w s']
        rfl
      · refine .inr ⟨p, digit, u, hd, hscan, hp, by rw [hlast]; rfl, fun w s' => ?_⟩
        rw [htokens, hmore w s']
        rfl

/-- A number that reaches what follows is one token if the scanner does not go on there. -/
theorem tokens_number_append {s p : Nat} (s' : Nat) {first : CodePoint} {t : Text}
    (hd : first.isDigit = true) (hscan : (Stage.integer.scan t).rest = [])
    (hw : ∀ c ∈ w.head?, (Stage.integer.scan t).stage.next? c.digitClass = none) :
    (Cursor.mk s p (first :: (t ++ w))).tokens =
      (number p first t).1 :: (Cursor.mk s' (p + 1 + t.length) w).tokens := by
  have happend : token p first (t ++ w) =
      ((number p first t).1, (number p first t).2.extended w) := by
    rw [← token_of_isDigit hd]
    exact token_append (.inr (.inr hw))
  have hf := (tokenAt_token p first t).not_finish
  rw [token_of_isDigit hd] at hf
  rw [tokens_cons_of_not_isBlank (CodePoint.isBlank_of_isDigit hd) (by rw [happend]; exact hf),
    happend, snd_number, Stage.taken_of_rest hscan, hscan]
  exact congrArg _ (tokens_mk p s' _ w)

/-- **Tokens do not change when text follows that does not go on with them.** Where the text ends
the scanner is at some stage, and no digit is missing there if no token is an error. -/
theorem exists_tokens_extended_of_stage (c : Cursor) :
    ∃ (ks : List Token) (stage : Stage), (∀ k ∈ ks, k.terminal.isFinish = false) ∧
      c.tokens = ks ++ [⟨c.finish, .finish⟩] ∧
      ((∀ k ∈ ks, k.terminal.error? = none) → stage.missing? = none) ∧
      ∀ w : Text, (∀ x ∈ w.head?, stage.next? x.digitClass = none) → ∀ s',
        (c.extended w).tokens = ks ++ (Cursor.mk s' c.finish w).tokens := by
  obtain ⟨ks, hks, ⟨hlast, hmore⟩ | ⟨p, first, t, hd, hscan, hp, hlast, hmore⟩⟩ :=
    c.tokens_extended_cases
  · exact ⟨ks, .integer, fun k hk => (hks k hk).1, hlast, fun _ => rfl, fun w _ s' => hmore w s'⟩
  · have hf := (tokenAt_token p first t).not_finish
    rw [token_of_isDigit hd] at hf
    refine ⟨ks ++ [(number p first t).1], (Stage.integer.scan t).stage, ?_,
      by rw [hlast, List.append_assoc]; rfl, fun hclear => ?_, fun w hw s' => ?_⟩
    · exact List.forall_mem_append.mpr ⟨fun k hk => (hks k hk).1, by simpa using hf⟩
    · rcases number_cases p first t with ⟨hmissing, -⟩ | ⟨kind, -, -, hnumber⟩
      · exact hmissing
      · have herror := hclear _ (List.mem_append_right ks List.mem_cons_self)
        rw [hnumber] at herror
        cases herror
    · rw [hmore w 0, tokens_number_append s' hd hscan hw, hp, List.append_assoc]
      rfl

/-- Tokens do not change when text follows that does not go on with a number. -/
theorem exists_tokens_extended (c : Cursor) :
    ∃ ks : List Token, (∀ k ∈ ks, k.terminal.isFinish = false) ∧
      c.tokens = ks ++ [⟨c.finish, .finish⟩] ∧
      ∀ w : Text, w.StopsNumber → ∀ s',
        (c.extended w).tokens = ks ++ (Cursor.mk s' c.finish w).tokens := by
  obtain ⟨ks, stage, hks, htokens, -, hmore⟩ := c.exists_tokens_extended_of_stage
  exact ⟨ks, hks, htokens, fun w hw => hmore w (hw.next?_eq_none stage)⟩

end Cursor

end Reckoner
