import Reckoner.Expr.Parse
import Reckoner.Proofs.Parser.Completeness
import Reckoner.Proofs.Parser.Recognizer

/-!
# Sentences

Whole texts: what the statements about rules and paths say of `Expr.parse`.

* `Expr.parse_eq_ok_iff`: a text parses to a tree exactly if its terminals are those of the tree,
  followed by the end, and the tree is canonical.
* `Expr.judge_of_parse_ok`, `Expr.judge_of_parse_error`: the recognizer accepts the tokens of a text
  that parses, and stops over those of any other text with the error that parsing ends with.
-/

namespace Reckoner.Expr

open Reckoner.Parser Reckoner.Recognizer

/-- The parser with which the parsing of a text begins, whatever its first token is. -/
def opening (s : Text) : Parser := start (.ofText s)

@[simp] theorem stream_opening (s : Text) : (opening s).stream = s.tokens :=
  stream_start (.ofText s)

theorem parse_of_isClear {s : Text} (h : (opening s).IsClear) :
    parse s = (opening s).expression.1 := by
  rw [parse, Parser.ofText, ofCursor, read_of_isClear h]
  rfl

theorem parse_of_error {s : Text} {e : LexicalError}
    (h : (opening s).current.terminal = .error e) :
    parse s = .error (.parse ⟨.lexicalError, (opening s).current, some e⟩) := by
  rw [parse, Parser.ofText, ofCursor, read_of_error h]
  rfl

theorem opening_isClear_of_parse {s : Text} {e : Expr} (h : parse s = .ok e) :
    (opening s).IsClear := by
  rcases (opening s).current.terminal.error?_eq_none_or with hc | ⟨le, hle⟩
  · exact hc
  · rw [parse_of_error hle] at h
    cases h

/-- A whole expression is a sum behind which the input ends. -/
theorem expression_eq_ok_iff {p : Parser} {e : Expr} :
    p.expression.1 = .ok e ↔ ∃ q, p.sum = (.ok e, q) ∧ q.atEnd = true := by
  unfold expression
  obtain ⟨f | e', q⟩ := p.sum
  · constructor
    · nofun
    · rintro ⟨_, ⟨⟩, -⟩
  · dsimp only
    split
    · next hend =>
      constructor
      · rintro ⟨⟩
        exact ⟨q, rfl, hend⟩
      · rintro ⟨_, ⟨⟩, -⟩
        rfl
    · next hend =>
      constructor
      · nofun
      · rintro ⟨_, ⟨⟩, hq⟩
        exact absurd hq hend

/-! ### Texts that parse -/

/-- A text parses to a tree exactly if its terminals are those of the tree, followed by the end,
and the tree is canonical. -/
theorem parse_eq_ok_iff {s : Text} {e : Expr} :
    parse s = .ok e ↔ s.terminals = e.terminals ++ [.finish] ∧ e.isCanonical = true := by
  constructor
  · intro h
    rw [parse_of_isClear (opening_isClear_of_parse h)] at h
    obtain ⟨q, hsum, hend⟩ := expression_eq_ok_iff.mp h
    obtain ⟨hpath, -, hcan⟩ := sum_eq_ok_iff.mp hsum
    obtain ⟨ks, hks, hstream⟩ := hpath.exists_stream_eq
    rw [stream_opening, stream_of_atEnd hend] at hstream
    refine ⟨?_, hcan⟩
    rw [Text.terminals, hstream, List.map_append, hks, List.map_singleton,
      Terminal.isFinish_eq_true.mp hend]
  · rintro ⟨hs, hcan⟩
    have hclear : ∀ k ∈ (opening s).stream, k.terminal.error? = none := by
      intro k hk
      have hmem : k.terminal ∈ s.terminals := by
        rw [stream_opening] at hk
        exact List.mem_map_of_mem hk
      rw [hs, List.mem_append, List.mem_singleton] at hmem
      rcases hmem with hmem | hfinish
      · exact (e.not_mem_terminals hmem).1
      · rw [hfinish]
        rfl
    have hstream : (opening s).stream.map (·.terminal) = e.terminals ++ [.finish] := by
      rw [stream_opening]
      exact hs
    obtain ⟨q, hpath, hq⟩ := exists_path_of_stream hstream (by simp) hclear
    have hend : q.current.terminal = .finish := by
      obtain ⟨ks, hks⟩ := q.exists_stream_eq_cons
      rw [hks, List.map_cons, List.cons.injEq] at hq
      exact hq.1
    have hopen : (opening s).IsClear := by
      obtain ⟨ks, hks⟩ := (opening s).exists_stream_eq_cons
      exact hclear _ (by rw [hks]; exact List.mem_cons_self)
    rw [parse_of_isClear hopen, expression_eq_ok_iff]
    refine ⟨q, sum_eq_ok_iff.mpr ⟨hpath, ?_, hcan⟩, Terminal.isFinish_eq_true.mpr hend⟩
    rw [hend]
    rfl

/-! ### The verdict on a text -/

theorem agrees_opening {s : Text} (h : (opening s).IsClear) :
    Agrees 0 (fun d => judge (.operand d) s.tokens) (opening s).sum := by
  have hagrees := agrees_run .sum (opening s) h nofun
  rwa [stream_opening] at hagrees

theorem judge_of_parse_ok {s : Text} {e : Expr} (h : parse s = .ok e) :
    judge (.operand 0) s.tokens = .accepted := by
  have hopen := opening_isClear_of_parse h
  rw [parse_of_isClear hopen] at h
  obtain ⟨q, hsum, hend⟩ := expression_eq_ok_iff.mp h
  have hagrees := agrees_opening hopen
  rw [hsum] at hagrees
  have hjudge : judge (.operand 0) s.tokens = judge (.completed 0) q.stream := hagrees.2 0
  rw [hjudge, stream_of_atEnd hend, judge, Terminal.isFinish_eq_true.mp hend]
  rfl

/-- Behind a whole sum the recognizer accepts the end, and stops at everything else. -/
theorem move_completed_zero_eq_stop {k : Terminal} (hk : k.error? = none)
    (ho : Goal.sum.continues k = false) (hf : k.isFinish = false) :
    (State.completed 0).move k = .stop .expectedEnd := by
  cases k with
  | operator => cases ho
  | finish => cases hf
  | error => cases hk
  | _ => rfl

theorem judge_of_parse_error {s : Text} {f : Fault} (h : parse s = .error f) :
    ∃ kind token, judge (.operand 0) s.tokens = .stopped kind token ∧
      f = .parse ⟨kind, token, token.terminal.error?⟩ := by
  rcases (opening s).current.terminal.error?_eq_none_or with hopen | ⟨e, he⟩
  · have hagrees := agrees_opening hopen
    rw [parse_of_isClear hopen, expression] at h
    cases hsum : (opening s).sum with
    | mk r q =>
      rw [hsum] at h hagrees
      cases r with
      | error g =>
        cases h
        obtain ⟨kind, rfl, hstop⟩ := hagrees
        exact ⟨kind, q.current, hstop 0, rfl⟩
      | ok e =>
        dsimp only at h
        split at h
        · cases h
        -- a sum was read, but not to the end of the input
        · next hend =>
          cases h
          have hstop : Goal.sum.continues q.current.terminal = false :=
            (sum_eq_ok_iff.mp hsum).2.1
          refine ⟨.expectedEnd, q.current, ?_, ?_⟩
          · have hjudge : judge (.operand 0) s.tokens = judge (.completed 0) q.stream :=
              hagrees.2 0
            exact hjudge.trans (judge_of_stop
              (move_completed_zero_eq_stop hagrees.1 hstop (Bool.eq_false_iff.mpr hend)))
          · rw [show q.current.terminal.error? = none from hagrees.1]
            rfl
  · rw [parse_of_error he] at h
    cases h
    refine ⟨.lexicalError, (opening s).current, ?_, by rw [he]; rfl⟩
    rw [← stream_opening]
    exact judge_of_stop (by rw [he, State.move_error])

/-! ### Texts with the terminals of a tree -/

/-- **A text with the terminals of a tree parses**, whatever the shape of the tree: the grammar
gives a tree of its own with the same terminals. -/
theorem exists_parse_of_terminals {s : Text} {e : Expr}
    (h : s.terminals = e.terminals ++ [.finish]) :
    ∃ u, parse s = .ok u ∧ u.terminals = e.terminals := by
  obtain ⟨ks, ks', htokens, hks, hks'⟩ := List.map_eq_append_iff.mp h
  have haccepted : judge (.operand 0) s.tokens = .accepted := by
    have hafter : (State.operand 0).after? (ks.map (·.terminal)) = some (.completed 0) := by
      rw [hks, after?_terminals]
    obtain ⟨k, rfl, hk⟩ := List.map_eq_singleton_iff.mp hks'
    rw [htokens, judge_append hafter, judge, hk]
    rfl
  cases hparse : parse s with
  | ok u =>
    obtain ⟨hu, -⟩ := parse_eq_ok_iff.mp hparse
    exact ⟨u, rfl, List.append_cancel_right (hu.symm.trans h)⟩
  -- if parsing failed, the recognizer would have stopped instead of accepting
  | error f =>
    obtain ⟨kind, token, hstopped, -⟩ := judge_of_parse_error hparse
    rw [haccepted] at hstopped
    cases hstopped

/-- **A lexical error behind the first terminals of a tree** is what parsing ends with. -/
theorem parse_of_error_behind {s : Text} {e : Expr} {ks ks' : List Token} {k : Token}
    {le : LexicalError} (htokens : s.tokens = ks ++ k :: ks')
    (hks : ks.map (·.terminal) <+: e.terminals) (hk : k.terminal = .error le) :
    parse s = .error (.parse ⟨.lexicalError, k, some le⟩) := by
  have hstopped : judge (.operand 0) s.tokens = .stopped .lexicalError k := by
    obtain ⟨s', hafter⟩ := exists_after?_of_prefix hks (after?_terminals e 0)
    rw [htokens, judge_append hafter, judge, hk, State.move_error]
  cases hparse : parse s with
  | ok u =>
    rw [judge_of_parse_ok hparse] at hstopped
    cases hstopped
  | error f =>
    obtain ⟨kind, token, hjudge, rfl⟩ := judge_of_parse_error hparse
    obtain ⟨rfl, rfl⟩ := Verdict.stopped.inj (hjudge.symm.trans hstopped)
    rw [hk]
    rfl

end Reckoner.Expr
