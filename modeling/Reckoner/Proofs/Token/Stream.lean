import Reckoner.Token.Cursor

/-!
# The tokens of a text

How the tokens from a cursor on begin, by what the rest of the input begins with. A blank is
skipped; a character that is a terminal, and one that begins no token, give one token each.

Where the last token began is not looked at, so the equations hold whatever it is. Main
statement: the end of the input comes last and only there (`Cursor.exists_tokens_eq`).
-/

namespace Reckoner

theorem Terminal.isFinish_eq_true {k : Terminal} : k.isFinish = true ↔ k = .finish := by
  cases k <;> simp [Terminal.isFinish]

/-- The terminals of a text, the end included. -/
def Text.terminals (s : Text) : List Terminal := s.tokens.map (·.terminal)

namespace Cursor

/-- The end of the input is the last token, and no other. -/
theorem exists_tokens_eq (c : Cursor) :
    ∃ ks k, c.tokens = ks ++ [k] ∧ k.terminal = .finish ∧
      ∀ j ∈ ks, j.terminal.isFinish = false := by
  fun_induction tokens c with
  | case1 c h =>
    refine ⟨[], c.next.1, rfl, ?_, nofun⟩
    exact Terminal.isFinish_eq_true.mp h
  | case2 c h ih =>
    obtain ⟨ks, k, hks, hk, hj⟩ := ih
    refine ⟨c.next.1 :: ks, k, by rw [hks]; rfl, hk, fun j hmem => ?_⟩
    rcases List.mem_cons.mp hmem with rfl | hmem
    · simpa using h
    · exact hj j hmem

theorem tokens_of_isFinish {c : Cursor} (h : c.next.1.terminal.isFinish = true) :
    c.tokens = [c.next.1] := by
  rw [tokens, dif_pos h]

theorem tokens_eq_cons {c : Cursor} (h : c.next.1.terminal.isFinish = false) :
    c.tokens = c.next.1 :: c.next.2.tokens := by
  rw [tokens, dif_neg (by simp [h])]

/-- Cursors that read the same have the same tokens. -/
theorem tokens_congr {c d : Cursor} (h : c.next.1 = d.next.1)
    (h' : c.next.1.terminal.isFinish = false → c.next.2 = d.next.2) : c.tokens = d.tokens := by
  cases hf : c.next.1.terminal.isFinish with
  | true => rw [tokens_of_isFinish hf, tokens_of_isFinish (c := d) (h ▸ hf), h]
  | false => rw [tokens_eq_cons hf, tokens_eq_cons (c := d) (h ▸ hf), h, h' hf]

/-- Reading does not look at where the last token began. -/
theorem fst_next_mk (s s' p : Nat) (t : Text) :
    (Cursor.mk s p t).next.1 = (Cursor.mk s' p t).next.1 := by
  simp only [next, skipBlanks]
  cases t.dropWhile CodePoint.isBlank <;> rfl

/-- Unless it was the end, what was read last determines the cursor behind it. -/
theorem snd_next_mk (s s' p : Nat) (t : Text)
    (h : (Cursor.mk s p t).next.1.terminal.isFinish = false) :
    (Cursor.mk s p t).next.2 = (Cursor.mk s' p t).next.2 := by
  simp only [next, skipBlanks] at h ⊢
  cases hd : t.dropWhile CodePoint.isBlank with
  | nil => simp [hd, Terminal.isFinish] at h
  | cons => rfl

theorem tokens_mk (s s' p : Nat) (t : Text) :
    (Cursor.mk s p t).tokens = (Cursor.mk s' p t).tokens :=
  tokens_congr (fst_next_mk s s' p t) (snd_next_mk s s' p t)

/-! ### One token at a time -/

variable {s p : Nat} {t : Text} {c : CodePoint}

theorem tokens_nil : (Cursor.mk s p []).tokens = [⟨p, .finish⟩] := tokens_of_isFinish rfl

/-- A blank is skipped. -/
theorem tokens_blank (s' : Nat) (h : c.isBlank = true) :
    (Cursor.mk s p (c :: t)).tokens = (Cursor.mk s' (p + 1) t).tokens := by
  -- the blank becomes the start of the last token, as it does when it is skipped
  have hskip : (Cursor.mk s p (c :: t)).skipBlanks = (Cursor.mk p (p + 1) t).skipBlanks := by
    simp only [skipBlanks, List.takeWhile_cons, h, if_true, List.length_cons, List.dropWhile_cons]
    congr 1
    · split <;> split <;> omega
    · omega
  have hnext : (Cursor.mk s p (c :: t)).next = (Cursor.mk p (p + 1) t).next := by
    unfold next
    rw [hskip]
  rw [tokens_mk s' p]
  exact tokens_congr (by rw [hnext]) fun _ => by rw [hnext]

/-- Where no blank begins the rest, its first character begins the next token. -/
theorem next_of_not_isBlank (h : c.isBlank = false) :
    (Cursor.mk s p (c :: t)).next = token p c t := by
  simp [next, skipBlanks, h]

theorem tokens_cons_of_not_isBlank (h : c.isBlank = false)
    (hf : (token p c t).1.terminal.isFinish = false) :
    (Cursor.mk s p (c :: t)).tokens = (token p c t).1 :: (token p c t).2.tokens := by
  rw [← next_of_not_isBlank (s := s) h] at hf ⊢
  exact tokens_eq_cons hf

/-- The symbols of the grammar are no blanks. -/
theorem isBlank_of_terminal? {k : Terminal} (h : c.terminal? = some k) : c.isBlank = false := by
  cases c with
  | surrogate => rfl
  | scalar c =>
    refine Bool.eq_false_iff.mpr fun hb => ?_
    simp only [CodePoint.isBlank, Bool.or_eq_true, decide_eq_true_eq] at hb
    rcases hb with rfl | rfl <;> cases h

/-- A character that is a terminal is a token. -/
theorem tokens_terminal (s' : Nat) {k : Terminal} (h : c.terminal? = some k)
    (hf : k.isFinish = false) :
    (Cursor.mk s p (c :: t)).tokens = ⟨p, k⟩ :: (Cursor.mk s' (p + 1) t).tokens := by
  have htoken : token p c t = (⟨p, k⟩, ⟨p, p + 1, t⟩) := by
    rw [token, h]
  rw [tokens_cons_of_not_isBlank (isBlank_of_terminal? h) (by rw [htoken]; exact hf), htoken,
    tokens_mk p s']

/-- A character that begins no token is an error. -/
theorem tokens_invalid (s' : Nat) (hb : c.isBlank = false) (hk : c.terminal? = none)
    (hd : c.isDigit = false) :
    (Cursor.mk s p (c :: t)).tokens =
      ⟨p, .error ⟨.invalidCharacter, p, some [c]⟩⟩ :: (Cursor.mk s' (p + 1) t).tokens := by
  have htoken : token p c t =
      (⟨p, .error ⟨.invalidCharacter, p, some [c]⟩⟩, ⟨p, p + 1, t⟩) := by
    simp [token, hk, hd]
  rw [tokens_cons_of_not_isBlank hb (by rw [htoken]; rfl), htoken, tokens_mk p s']

end Cursor

/-- The terminals of a text are those in front of the end, and the end. -/
theorem Text.terminals_eq (s : Text) :
    s.terminals = (s.tokens.takeWhile fun k => !k.terminal.isFinish).map (·.terminal) ++
      [.finish] := by
  obtain ⟨ks, k, htokens, hk, hks⟩ := (Cursor.ofText s).exists_tokens_eq
  have hfront : ∀ j ∈ ks, (!j.terminal.isFinish) = true := by
    intro j hj
    rw [hks j hj]
    rfl
  have hlast : [k].takeWhile (fun j => !j.terminal.isFinish) = [] := by
    rw [List.takeWhile_cons, hk]
    rfl
  rw [Text.terminals, Text.tokens, htokens, List.takeWhile_append_of_pos hfront, hlast,
    List.append_nil, List.map_append, List.map_singleton, hk]

end Reckoner
