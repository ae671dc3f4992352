import Mathlib.Data.List.Basic
import Reckoner.Proofs.Expr.Sentence
import Reckoner.Proofs.Token.Extension

/-!
# Unfinished texts

Some texts that do not parse are only unfinished: more text behind them makes an expression of them.
Main statement: the error alone tells which texts these are (`Expr.exists_parse_append_iff`).

The recognizer decides it. Tokens in front of the end do not change when a text goes on, but for a
number at its very end (`Cursor.tokens_extended_cases`), so a text that is to be mended must bring
the recognizer to its end, or to that number with an operand expected. From there an operand and the
right number of closing parentheses lead to acceptance.
-/

namespace Reckoner

/-- Whether an operand is expected behind a terminal. -/
def Terminal.expectsOperand : Terminal → Bool
  | operator _ => true
  | leftParen => true
  | _ => false

/-- A parse error of a text leaves it **unfinished** when parsing failed at the end, or at a number
that breaks off where the text ends and stands where an operand is expected. -/
inductive ParseError.Unfinished (s : Text) : ParseError → Prop where
  | atEnd {kind : Kind} {k : Token}
      (hkind : kind = .expectedExpression ∨ kind = .expectedRightParen)
      (hk : k.terminal = .finish) : Unfinished s ⟨kind, k, none⟩
  | inNumber {k : Token} {e : LexicalError} {before after : List Token}
      (hkind : e.kind = .noDigitAfterPoint ∨ e.kind = .noDigitAfterE)
      (hposition : e.position = s.length) (htokens : s.tokens = before ++ k :: after)
      (hbefore : ∀ j ∈ before.getLast?, j.terminal.expectsOperand = true) :
      Unfinished s ⟨.lexicalError, k, some e⟩

namespace Recognizer

variable {s s' : State} {k : Terminal}

theorem isFinish_of_move_accept (h : s.move k = .accept) : k.isFinish = true := by
  cases s with
  | operand d =>
    cases k with
    | operator o => cases o <;> cases h
    | _ => cases h
  | completed d => cases d <;> cases k <;> first | rfl | cases h

/-- Tokens in front of the end are gone over, or the recognizer stops at one of them. -/
theorem exists_after?_or_stopped (s : State) {ks : List Token}
    (hks : ∀ k ∈ ks, k.terminal.isFinish = false) :
    (∃ s', s.after? (ks.map (·.terminal)) = some s') ∨
      ∃ kind, ∃ k ∈ ks, ∀ js, judge s (ks ++ js) = .stopped kind k := by
  induction ks generalizing s with
  | nil => exact .inl ⟨s, rfl⟩
  | cons k ks ih =>
    obtain ⟨hk, hks⟩ := List.forall_mem_cons.mp hks
    cases hm : s.move k.terminal with
    | go s₁ =>
      rcases ih s₁ hks with ⟨s', hs'⟩ | ⟨kind, j, hj, hstop⟩
      · exact .inl ⟨s', by rw [List.map_cons, State.after?_cons hm, hs']⟩
      · refine .inr ⟨kind, j, List.mem_cons_of_mem k hj, fun js => ?_⟩
        rw [List.cons_append, judge, hm]
        exact hstop js
    | accept =>
      rw [isFinish_of_move_accept hm] at hk
      cases hk
    | stop kind =>
      refine .inr ⟨kind, k, List.mem_cons_self, fun js => ?_⟩
      rw [List.cons_append, judge, hm]

/-- An operand is expected exactly behind the terminals behind which one is. -/
theorem expectsOperand_of_move (h : s.move k = .go s') :
    k.expectsOperand = true ↔ ∃ d, s' = .operand d := by
  cases s with
  | operand d =>
    cases k with
    | operator o => cases o <;> cases h <;> exact ⟨fun _ => ⟨d, rfl⟩, fun _ => rfl⟩
    | leftParen =>
      cases h
      exact ⟨fun _ => ⟨d + 1, rfl⟩, fun _ => rfl⟩
    | number =>
      cases h
      exact ⟨nofun, nofun⟩
    | _ => cases h
  | completed d =>
    cases k with
    | operator => cases d <;> cases h <;> exact ⟨fun _ => ⟨_, rfl⟩, fun _ => rfl⟩
    | rightParen =>
      cases d with
      | zero => cases h
      | succ d =>
        cases h
        exact ⟨nofun, nofun⟩
    | _ => cases d <;> cases h

/-- Behind tokens that were gone over, the last one tells whether an operand is expected. -/
theorem expectsOperand_of_after? {ks : List Token}
    (h : (State.operand 0).after? (ks.map (·.terminal)) = some s') :
    (∀ k ∈ ks.getLast?, k.terminal.expectsOperand = true) ↔ ∃ d, s' = .operand d := by
  rcases List.eq_nil_or_concat ks with rfl | ⟨js, k, rfl⟩
  · cases h
    exact ⟨fun _ => ⟨0, rfl⟩, fun _ => nofun⟩
  · rw [List.concat_eq_append] at h ⊢
    rw [List.map_append, State.after?_append] at h
    obtain ⟨s₁, -, hk⟩ := Option.bind_eq_some_iff.mp h
    have hmove : s₁.move k.terminal = .go s' := by
      cases hm : s₁.move k.terminal with
      | go s₂ =>
        rw [List.map_singleton, State.after?_cons hm] at hk
        rw [Option.some.inj hk]
      | _ =>
        rw [List.map_singleton, State.after?, hm] at hk
        cases hk
    rw [← expectsOperand_of_move hmove]
    simp

/-! ### What mends a text -/

/-- Closing parentheses. -/
def closing (depth : Nat) : Text := List.replicate depth (.scalar ')')

theorem stopsNumber_closing (d : Nat) : (closing d).StopsNumber := by
  cases d with
  | zero => exact .nil
  | succ d => exact .cons rfl _

/-- Closing all open parentheses leads from a completed operand to acceptance. -/
theorem judge_closing (start p d : Nat) :
    judge (.completed d) (Cursor.mk start p (closing d)).tokens = .accepted := by
  induction d generalizing p with
  | zero => rw [closing, List.replicate_zero, Cursor.tokens_nil, judge]; rfl
  | succ d ih =>
    rw [closing, List.replicate_succ, Cursor.tokens_terminal start (k := .rightParen) rfl rfl,
      judge]
    exact ih (p + 1)

/-- So does an operand in front of them where one is expected. -/
theorem judge_number_closing (start p q d : Nat) (x : Double) :
    judge (.operand d) (⟨q, .number x⟩ :: (Cursor.mk start p (closing d)).tokens) = .accepted := by
  rw [judge]
  exact judge_closing start p d

end Recognizer

namespace Cursor

open Recognizer

/-- A digit mends a number that breaks off at the end of the input. -/
theorem exists_number_append_digit {p : Nat} {first : CodePoint} {t : Text} (d : Nat)
    (hscan : (Stage.integer.scan t).rest = [])
    (hbroken : (number p first t).1.terminal.isBrokenNumber = true) :
    ∃ x q, number p first (t ++ .scalar '0' :: closing d) =
      (⟨p, .number x⟩, ⟨p, q, closing d⟩) := by
  have hfollow := Stage.integer.follow?_taken t
  rw [Stage.taken_of_rest hscan] at hfollow
  -- a digit is what is missing, and a closing parenthesis does not go on with a number
  obtain ⟨stage, hdigit, hcomplete⟩ : ∃ stage : Stage,
      (Stage.integer.scan t).stage.next? .digit = some stage ∧ stage.missing? = none := by
    rcases number_cases p first t with ⟨-, x, hx⟩ | ⟨kind, hmissing, -, -⟩
    · rw [hx] at hbroken
      cases hbroken
    · cases hs : (Stage.integer.scan t).stage <;> rw [hs] at hmissing <;> cases hmissing
      · exact ⟨.fraction, rfl, rfl⟩
      · exact ⟨.exponentDigits, rfl, rfl⟩
      · exact ⟨.exponentDigits, rfl, rfl⟩
  have hlong : Stage.integer.follow? (t ++ [.scalar '0']) = some stage := by
    rw [Stage.follow?_append, hfollow, Option.bind_some, Stage.follow?,
      CodePoint.digitClass_of_isDigit rfl, hdigit]
    rfl
  have hread := Stage.scan_of_follow? hlong ((stopsNumber_closing d).next?_eq_none stage)
  rw [List.append_assoc, List.singleton_append] at hread
  rcases number_cases p first (t ++ .scalar '0' :: closing d) with ⟨-, x, hx⟩ | ⟨kind, hmissing, -⟩
  · exact ⟨x, _, Prod.ext hx (by rw [snd_number, hread])⟩
  · rw [hread, hcomplete] at hmissing
    cases hmissing

end Cursor

namespace Expr

open Recognizer

variable {s w : Text} {e : ParseError}

theorem exists_parse_iff : (∃ t, parse s = .ok t) ↔ judge (.operand 0) s.tokens = .accepted := by
  constructor
  · rintro ⟨t, ht⟩
    exact judge_of_parse_ok ht
  · intro h
    cases hparse : parse s with
    | ok t => exact ⟨t, rfl⟩
    | error f =>
      obtain ⟨kind, token, hstopped, -⟩ := judge_of_parse_error hparse
      rw [h] at hstopped
      cases hstopped

theorem parse_eq_error_iff :
    parse s = .error (.parse e) ↔
      judge (.operand 0) s.tokens = .stopped e.kind e.token ∧
        e.lexical = e.token.terminal.error? := by
  constructor
  · intro h
    obtain ⟨kind, token, hstopped, he⟩ := judge_of_parse_error h
    cases he
    exact ⟨hstopped, rfl⟩
  · rintro ⟨hstopped, hlexical⟩
    cases hparse : parse s with
    | ok t =>
      rw [judge_of_parse_ok hparse] at hstopped
      cases hstopped
    | error f =>
      obtain ⟨kind, token, hjudge, rfl⟩ := judge_of_parse_error hparse
      obtain ⟨rfl, rfl⟩ := Verdict.stopped.inj (hjudge.symm.trans hstopped)
      rw [← hlexical]

/-- A text on which the recognizer stops at the end can be mended: by an operand behind a blank, if
one is expected, and closing parentheses. -/
theorem exists_accepted_of_stopped_atEnd {kind : ParseError.Kind} {k : Token}
    (h : judge (.operand 0) s.tokens = .stopped kind k) (hk : k.terminal = .finish) :
    ∃ w, judge (.operand 0) (s ++ w).tokens = .accepted := by
  obtain ⟨ks, hks, htokens, hmore⟩ := (Cursor.ofText s).exists_tokens_extended
  have hjudge : ∀ {S}, (State.operand 0).after? (ks.map (·.terminal)) = some S →
      ∀ w : Text, w.StopsNumber →
        judge (.operand 0) (s ++ w).tokens =
          judge S (Cursor.mk 0 (Cursor.ofText s).finish w).tokens := by
    intro S hS w hw
    rw [← judge_append hS, ← hmore w hw 0]
    rfl
  rcases exists_after?_or_stopped (.operand 0) hks with ⟨S, hS⟩ | ⟨kind', j, hj, hstop⟩
  · cases S with
    | operand d =>
      have hzero : (Cursor.mk 0 ((Cursor.ofText s).finish + 1) (.scalar '0' :: closing d)).tokens =
          _ :: (Cursor.mk 0 _ (closing d)).tokens :=
        Cursor.tokens_literal 0 ⟨⟨['0'], nofun, List.forall_mem_singleton.mpr rfl⟩, none, none⟩
          (stopsNumber_closing d)
      refine ⟨.scalar ' ' :: .scalar '0' :: closing d, ?_⟩
      rw [hjudge hS _ (.cons rfl _), Cursor.tokens_blank 0 rfl, hzero]
      exact judge_number_closing _ _ _ d _
    | completed d =>
      refine ⟨closing d, ?_⟩
      rw [hjudge hS _ (stopsNumber_closing d)]
      exact judge_closing _ _ d
  -- the end is not among the tokens in front of it
  · rw [show s.tokens = _ from htokens, hstop] at h
    obtain ⟨-, rfl⟩ := Verdict.stopped.inj h
    have hf := hks j hj
    rw [hk] at hf
    cases hf

/-- A text on which the recognizer stops at a number that breaks off at the end, where an operand is
expected, can be mended: by a digit and closing parentheses. -/
theorem exists_accepted_of_stopped_inNumber {kind : ParseError.Kind} {k : Token} {e : LexicalError}
    {before after : List Token} (h : judge (.operand 0) s.tokens = .stopped kind k)
    (hk : k.terminal = .error e) (hkind : e.kind ≠ .invalidCharacter)
    (hposition : e.position = s.length) (htokens : s.tokens = before ++ k :: after)
    (hbefore : ∀ j ∈ before.getLast?, j.terminal.expectsOperand = true) :
    ∃ w, judge (.operand 0) (s ++ w).tokens = .accepted := by
  obtain ⟨ks, hks, hcases⟩ := (Cursor.ofText s).tokens_extended_cases
  rw [Cursor.finish_ofText] at hks hcases
  have hmem : k ∉ ks := fun hmem => by
    have hlt := (hks k hmem).2 e hk hkind
    omega
  have hend : k ≠ ⟨s.length, .finish⟩ := by
    rintro rfl
    cases hk
  rcases hcases with ⟨hlast, -⟩ | ⟨p, first, t, hd, hscan, -, hlast, hmore⟩
  -- every token in front of the end would be settled
  · have hk' : k ∈ s.tokens := by
      rw [htokens]
      exact List.mem_append_right _ List.mem_cons_self
    rw [show s.tokens = _ from hlast, List.mem_append, List.mem_singleton] at hk'
    exact absurd hk' (not_or.mpr ⟨hmem, hend⟩)
  · obtain ⟨rfl, rfl, -⟩ := (List.append_cons_inj_of_notMem hmem (by simpa using hend)).mp
      (hlast.symm.trans htokens)
    rcases exists_after?_or_stopped (.operand 0) fun j hj => (hks j hj).1 with
      ⟨S, hS⟩ | ⟨kind', j, hj, hstop⟩
    · obtain ⟨d, rfl⟩ := (expectsOperand_of_after? hS).mp hbefore
      have hbroken : (Cursor.number p first t).1.terminal.isBrokenNumber = true := by
        rw [hk]
        simpa [Terminal.isBrokenNumber] using hkind
      obtain ⟨x, q, hnumber⟩ := Cursor.exists_number_append_digit d hscan hbroken
      refine ⟨.scalar '0' :: closing d, ?_⟩
      have hread := hmore (.scalar '0' :: closing d) 0
      rw [Cursor.tokens_cons_of_not_isBlank (CodePoint.isBlank_of_isDigit hd)
        (by rw [Cursor.token_of_isDigit hd, hnumber]; rfl), Cursor.token_of_isDigit hd,
        hnumber] at hread
      rw [show (s ++ _).tokens = _ from hread, judge_append hS]
      exact judge_number_closing _ _ _ d x
    · rw [htokens, hstop] at h
      obtain ⟨-, rfl⟩ := Verdict.stopped.inj h
      exact absurd hj hmem

/-! ### What cannot be mended -/

/-- Where the recognizer comes to the end, the text parses or is unfinished. -/
theorem parse_or_unfinished_of_atEnd {S : State} {n : Int}
    (h : judge (.operand 0) s.tokens = judge S [⟨n, .finish⟩]) :
    (∃ t, parse s = .ok t) ∨ ∃ e, parse s = .error (.parse e) ∧ e.Unfinished s := by
  have hstopped : ∀ kind, judge S [⟨n, .finish⟩] = .stopped kind ⟨n, .finish⟩ →
      parse s = .error (.parse ⟨kind, ⟨n, .finish⟩, none⟩) := fun kind hkind =>
    parse_eq_error_iff.mpr ⟨h.trans hkind, rfl⟩
  cases S with
  | operand d => exact .inr ⟨_, hstopped .expectedExpression rfl, .atEnd (.inl rfl) rfl⟩
  | completed d =>
    cases d with
    | zero => exact .inl (exists_parse_iff.mpr h)
    | succ d => exact .inr ⟨_, hstopped .expectedRightParen rfl, .atEnd (.inr rfl) rfl⟩

/-- A text that can be mended parses or is unfinished. -/
theorem parse_or_unfinished_of_accepted (h : judge (.operand 0) (s ++ w).tokens = .accepted) :
    (∃ t, parse s = .ok t) ∨ ∃ e, parse s = .error (.parse e) ∧ e.Unfinished s := by
  obtain ⟨ks, hks, hcases⟩ := (Cursor.ofText s).tokens_extended_cases
  rw [Cursor.finish_ofText] at hks hcases
  rcases exists_after?_or_stopped (.operand 0) fun j hj => (hks j hj).1 with
    ⟨S, hS⟩ | ⟨kind, j, -, hstop⟩
  · rcases hcases with ⟨hlast, -⟩ | ⟨p, first, t, hd, hscan, hp, hlast, hmore⟩
    · refine parse_or_unfinished_of_atEnd (S := S) (n := s.length) ?_
      rw [show s.tokens = _ from hlast, judge_append hS]
    -- the number at the end, longer or not, was accepted as an operand
    · rw [show (s ++ w).tokens = _ from hmore w 0, judge_append hS,
        Cursor.tokens_cons_of_not_isBlank (CodePoint.isBlank_of_isDigit hd)
          (Cursor.tokenAt_token _ _ _).not_finish, Cursor.token_of_isDigit hd, judge] at h
      obtain ⟨d, rfl⟩ : ∃ d, S = .operand d := by
        rcases Cursor.number_cases p first (t ++ w) with ⟨-, x, hx⟩ | ⟨kind, -, -, hx⟩
        · rw [hx] at h
          cases S with
          | operand d => exact ⟨d, rfl⟩
          | completed d => cases d <;> cases h
        · rw [hx, State.move_error] at h
          cases h
      rcases Cursor.number_cases p first t with ⟨-, x, hx⟩ | ⟨kind, -, hkind, hx⟩
      · refine parse_or_unfinished_of_atEnd (S := .completed d) (n := s.length) ?_
        rw [show s.tokens = _ from hlast, judge_append hS, hx]
        rfl
      · have hposition : (Cursor.number p first t).2.position = s.length := by
          rw [Cursor.snd_number, Stage.taken_of_rest hscan]
          exact hp
        rw [hposition] at hx
        refine .inr ⟨⟨.lexicalError, (Cursor.number p first t).1, _⟩,
          parse_eq_error_iff.mpr ⟨?_, by rw [hx]; rfl⟩, .inNumber ?_ rfl hlast ?_⟩
        · rw [show s.tokens = _ from hlast, judge_append hS, judge, hx]
          rfl
        · cases kind with
          | invalidCharacter => exact absurd rfl hkind
          | noDigitAfterPoint => exact .inl rfl
          | noDigitAfterE => exact .inr rfl
        · exact (expectsOperand_of_after? hS).mpr ⟨d, rfl⟩
  · obtain ⟨js, hjs⟩ : ∃ js, (s ++ w).tokens = ks ++ js := by
      rcases hcases with ⟨-, hmore⟩ | ⟨_, _, _, -, -, -, -, hmore⟩
      · exact ⟨_, hmore w 0⟩
      · exact ⟨_, hmore w 0⟩
    rw [hjs, hstop] at h
    cases h

/-- **The error alone tells which texts are unfinished.** A text can be continued to one that parses
exactly if it parses itself, or parsing it failed at the end, or at a number that breaks off where
the text ends and stands behind an operator, behind an opening parenthesis or at the beginning. -/
theorem exists_parse_append_iff (s : Text) :
    (∃ w t, parse (s ++ w) = .ok t) ↔
      (∃ t, parse s = .ok t) ∨ ∃ e, parse s = .error (.parse e) ∧ e.Unfinished s := by
  constructor
  · rintro ⟨w, t, h⟩
    exact parse_or_unfinished_of_accepted (judge_of_parse_ok h)
  · rintro (⟨t, h⟩ | ⟨e, h, hunfinished⟩)
    · exact ⟨[], t, by rwa [List.append_nil]⟩
    · obtain ⟨hstopped, hlexical⟩ := parse_eq_error_iff.mp h
      simp only [exists_parse_iff]
      cases hunfinished with
      | atEnd _ hk => exact exists_accepted_of_stopped_atEnd hstopped hk
      | @inNumber k e before after hkind hposition htokens hbefore =>
        have hk : k.terminal = .error e := by
          cases hterminal : k.terminal <;> rw [hterminal] at hlexical <;> cases hlexical
          rfl
        refine exists_accepted_of_stopped_inNumber hstopped hk ?_ hposition htokens hbefore
        rintro hinvalid
        rw [hinvalid] at hkind
        rcases hkind with hkind | hkind <;> cases hkind

end Expr

end Reckoner
