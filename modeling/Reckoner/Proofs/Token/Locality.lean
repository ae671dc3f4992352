import Reckoner.Proofs.Token.Extension

/-!
# How far the lexer looks

A call of the lexer looks no further than one character behind the token that it reads. Where a
token ends in front of a character, the same token is read from every text that agrees up to that
character (`Cursor.next_of_rest`).

Main statement: texts that agree up to one character behind the token of a call are read alike up to
that call (`Text.call_eq_of_take`). The step from one call to the next is `Text.call_eq_of_place`.
-/

namespace Reckoner

/-- The scanner stops in front of a character whatever stands behind that. -/
theorem Stage.scan_of_rest {s : Stage} {t r : Text} {x : CodePoint}
    (h : (s.scan t).rest = x :: r) (r' : Text) :
    s.scan ((s.scan t).taken ++ x :: r') = ⟨(s.scan t).stage, (s.scan t).taken, x :: r'⟩ := by
  have hstop := s.next?_rest t
  rw [h] at hstop
  exact scan_of_follow? (s.follow?_taken t) hstop

namespace Cursor

/-- A token that ends in front of a character does so whatever stands behind that. -/
theorem token_of_rest {start : Nat} {first x : CodePoint} {t r : Text}
    (h : (token start first t).2.rest = x :: r) :
    ∃ taken, t = taken ++ x :: r ∧ ∀ r', token start first (taken ++ x :: r') =
      ((token start first t).1, ⟨start, start + 1 + taken.length, x :: r'⟩) := by
  unfold token at h ⊢
  cases hk : first.terminal? with
  | some k =>
    rw [hk] at h
    exact ⟨[], h, fun _ => rfl⟩
  | none =>
    rw [hk] at h
    cases hd : first.isDigit with
    | false =>
      rw [hd] at h
      exact ⟨[], h, fun _ => rfl⟩
    | true =>
      rw [hd] at h
      have hrest : (Stage.integer.scan t).rest = x :: r := h
      refine ⟨(Stage.integer.scan t).taken, ?_, fun r' => ?_⟩
      · rw [← hrest, Stage.taken_append_rest]
      · simp only [if_true, number, Stage.scan_of_rest hrest]

/-- **A call looks at one character behind its token and no further.** -/
theorem next_of_rest {start p : Nat} {t r : Text} {x : CodePoint}
    (h : (Cursor.mk start p t).next.2.rest = x :: r) :
    ∃ piece, t = piece ++ x :: r ∧ ∀ start' r',
      (Cursor.mk start' p (piece ++ x :: r')).next =
        ((Cursor.mk start p t).next.1,
          ⟨(Cursor.mk start p t).next.2.start, p + piece.length, x :: r'⟩) := by
  rcases (Cursor.mk start p t).next_cases with ⟨-, -, hnil, hnext⟩ |
    ⟨blanks, first, u, hrest, hblank, hfirst, hnext⟩
  · rw [hnext, hnil] at h
    cases h
  · have hstart := (tokenAt_token (p + blanks.length) first u).start_eq
    rw [hnext] at h ⊢
    obtain ⟨taken, rfl, htoken⟩ := token_of_rest h
    have hposition : p + blanks.length + 1 + taken.length =
        p + (blanks ++ first :: taken).length := by
      rw [List.length_append, List.length_cons]
      omega
    refine ⟨blanks ++ first :: taken, ?_, fun start' r' => ?_⟩
    · rw [List.append_assoc, List.cons_append]
      exact hrest
    · rw [List.append_assoc, List.cons_append, next_blanks_append hblank hfirst, htoken, hstart,
        ← hposition]

end Cursor

namespace Text

variable {s s' : Text} {i n : Nat}

/-- Behind an index texts that agree up to a later one begin alike. -/
theorem drop_of_take {k m : Nat} (hkm : k ≤ m) (hs : s'.take m = s.take m) :
    s'.drop k = (s.drop k).take (m - k) ++ s'.drop m := by
  have hrest : (s'.drop k).drop (m - k) = s'.drop m := by
    rw [List.drop_drop, Nat.add_sub_cancel' hkm]
  rw [← List.drop_take, ← hs, List.drop_take, ← hrest, List.take_append_drop]

/-- A call reads what its text holds from its place on. -/
theorem exists_call_eq (s : Text) (i : Nat) :
    ∃ start, s.call i = (Cursor.mk start (s.place i) (s.drop (s.place i))).next :=
  ⟨((Cursor.ofText s).skip i).start, by
    rw [place, ← ((Cursor.StandsIn.ofText s).skip i).rest_eq]
    rfl⟩

/-- A call leaves what its text holds from the next place on. -/
theorem rest_call (s : Text) (i : Nat) : (s.call i).2.rest = s.drop (s.place (i + 1)) := by
  have h := ((Cursor.StandsIn.ofText s).skip (i + 1)).rest_eq
  rwa [Cursor.skip_succ, ← Text.call, ← place_succ] at h

/-- **The step lemma**: texts that are read alike up to a call, and agree up to one character behind
its token, are read alike in the call. -/
theorem call_eq_of_place (hplace : s'.place i = s.place i) (hlt : s.place (i + 1) < s.length)
    (hs : s'.take (s.place (i + 1) + 1) = s.take (s.place (i + 1) + 1)) :
    (s'.call i).1 = (s.call i).1 ∧ s'.place (i + 1) = s.place (i + 1) := by
  obtain ⟨start, hcall⟩ := s.exists_call_eq i
  obtain ⟨start', hcall'⟩ := s'.exists_call_eq i
  have hpos : 0 < (s.drop (s.place (i + 1))).length := by
    rw [List.length_drop]
    omega
  obtain ⟨x, r, hx⟩ := List.exists_cons_of_length_pos hpos
  have hrest := s.rest_call i
  rw [hx, hcall] at hrest
  obtain ⟨piece, hpiece, hread⟩ := Cursor.next_of_rest hrest
  have hnext : s.place (i + 1) = s.place i + piece.length := by
    have hlength := congrArg List.length hpiece
    rw [← hx] at hlength
    have hle := s.place_le i
    simp only [List.length_drop, List.length_append] at hlength
    omega
  -- the second text has the same piece, and the same character behind it
  have hpiece' : s'.drop (s.place i) = piece ++ x :: s'.drop (s.place (i + 1) + 1) := by
    have htake : s.place (i + 1) + 1 - s.place i = piece.length + 1 := by omega
    rw [drop_of_take (by omega) hs, hpiece, htake, List.take_length_add_append,
      List.append_assoc]
    rfl
  rw [hplace, hpiece', hread, ← hcall, ← hnext] at hcall'
  rw [place_succ s', hcall']
  exact ⟨rfl, rfl⟩

/-- **Calls look at one character behind their tokens and no further.** Texts that agree up to one
character behind the token of a call are read alike up to that call. -/
theorem call_eq_of_take (hlt : s.place (n + 1) < s.length)
    (hs : s'.take (s.place (n + 1) + 1) = s.take (s.place (n + 1) + 1)) (hi : i ≤ n) :
    (s'.call i).1 = (s.call i).1 ∧ s'.place (i + 1) = s.place (i + 1) := by
  have hstep : ∀ j ≤ n, s'.place j = s.place j →
      (s'.call j).1 = (s.call j).1 ∧ s'.place (j + 1) = s.place (j + 1) := by
    intro j hj hplace
    have hle : s.place (j + 1) ≤ s.place (n + 1) := s.place_mono (Nat.succ_le_succ hj)
    have hmin : min (s.place (j + 1) + 1) (s.place (n + 1) + 1) = s.place (j + 1) + 1 := by omega
    refine call_eq_of_place hplace (Nat.lt_of_le_of_lt hle hlt) ?_
    rw [← hmin, ← List.take_take, hs, List.take_take]
  induction i with
  | zero => exact hstep 0 hi rfl
  | succ i ih => exact hstep (i + 1) hi (ih (Nat.le_of_succ_le hi)).2

/-! ### Lists of tokens -/

/-- The tokens of a text are those that its calls give. -/
theorem call_of_getElem?_tokens {k : Token} (h : s.tokens[i]? = some k) : (s.call i).1 = k := by
  obtain ⟨m, -, htokens, -⟩ := (Cursor.ofText s).exists_tokens_eq_map
  rw [show s.tokens = _ from htokens, List.getElem?_map] at h
  obtain ⟨j, hj, hk⟩ := Option.map_eq_some_iff.mp h
  obtain ⟨_, rfl⟩ := List.getElem?_eq_some_iff.mp hj
  rw [List.getElem_range] at hk
  exact hk

/-- Texts have the same first tokens if their first calls give the same. -/
theorem take_tokens_eq (hcalls : ∀ i ≤ n, (s'.call i).1 = (s.call i).1)
    (hn : n < s.tokens.length) : s'.tokens.take (n + 1) = s.tokens.take (n + 1) := by
  obtain ⟨m, -, htokens, hbefore, -⟩ := (Cursor.ofText s).exists_tokens_eq_map
  obtain ⟨m', -, htokens', -, hlast'⟩ := (Cursor.ofText s').exists_tokens_eq_map
  rw [show s.tokens = _ from htokens] at hn ⊢
  rw [List.length_map, List.length_range] at hn
  -- the second text does not end earlier
  have hm' : n ≤ m' := by
    by_contra hlt
    have hcall := hcalls m' (by omega)
    have hf := hbefore m' (by omega)
    rw [Text.call, Text.call] at hcall
    rw [hcall, hf] at hlast'
    cases hlast'
  rw [show s'.tokens = _ from htokens', ← List.map_take, ← List.map_take, List.take_range,
    List.take_range, Nat.min_eq_left (by omega), Nat.min_eq_left (by omega)]
  refine List.map_congr_left fun i hi => hcalls i ?_
  have hi' := List.mem_range.mp hi
  omega

section Append

variable {js is : List Token} {k : Token}

/-- The call that gives a token has the number of tokens in front of it. -/
theorem call_of_tokens_eq_append (h : s.tokens = js ++ k :: is) : (s.call js.length).1 = k := by
  refine call_of_getElem?_tokens ?_
  rw [h, List.getElem?_append_right (Nat.le_refl _), Nat.sub_self]
  rfl

theorem call_of_lt_length (h : s.tokens = js ++ k :: is) (hi : i < js.length) :
    (s.call i).1 = js[i] := by
  refine call_of_getElem?_tokens ?_
  rw [h, List.getElem?_append_left hi, List.getElem?_eq_getElem hi]

/-- The tokens of a text begin as those of another one up to a token, if the calls give the same. -/
theorem exists_tokens_eq_append (h : s.tokens = js ++ k :: is)
    (hcalls : ∀ i ≤ js.length, (s'.call i).1 = (s.call i).1) :
    ∃ is', s'.tokens = js ++ k :: is' := by
  have hlength : js.length < s.tokens.length := by
    rw [h, List.length_append, List.length_cons]
    omega
  have htake : s'.tokens.take (js.length + 1) = js ++ [k] := by
    rw [take_tokens_eq hcalls hlength, h, List.take_length_add_append]
    rfl
  refine ⟨s'.tokens.drop (js.length + 1), ?_⟩
  conv_lhs => rw [← List.take_append_drop (js.length + 1) s'.tokens]
  rw [htake, List.append_assoc, List.singleton_append]

end Append

end Text

end Reckoner
