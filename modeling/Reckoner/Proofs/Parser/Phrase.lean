import Reckoner.Proofs.Parser.Completeness
import Reckoner.Proofs.Parser.Safety

/-!
# Phrases

A *phrase* of a rule is what the rule can read at the front of a stream: the tokens of a tree that
the rule gives, with a token behind them that ends it. Main statement: from any parser with no
lexical error in front of it, a rule reads the phrase that its stream begins with, and there is at
most one; if there is none, the rule gives up with a parse error (`Parser.run_exact`).

Phrases are about lists of tokens, so nothing in them depends on how a parser got where it is. The
way from a list to the parser behind it is a path (`Phrase.exists_path`).
-/

namespace Reckoner.Parser

/-- The first `n` tokens of a stream are a **phrase** of a rule for a tree: they are the tokens of
the tree, which is canonical and one that the rule gives. The token behind them is no lexical error,
and the rule does not go on with it. -/
structure Phrase (rule : Rule) (ks : List Token) (e : Expr) (n : Nat) : Prop where
  terminals : (ks.take n).map (·.terminal) = e.terminals
  canonical : e.isCanonical = true
  admitted : rule.goal.admits e = true
  stopped : ∃ k, ks[n]? = some k ∧ k.terminal.error? = none ∧
    rule.goal.continues k.terminal = false

variable {rule : Rule} {p q : Parser} {e e' : Expr} {n n' : Nat}

namespace Phrase

/-- A phrase is as long as its tree is wide. -/
theorem length_terminals {ks : List Token} (h : Phrase rule ks e n) : e.terminals.length = n := by
  obtain ⟨k, hk, -, -⟩ := h.stopped
  have hn : n < ks.length := (List.getElem?_eq_some_iff.mp hk).1
  rw [← h.terminals, List.length_map, List.length_take_of_le (Nat.le_of_lt hn)]

/-- A path leads over a phrase, to the token that ends it. -/
theorem exists_path (h : Phrase rule p.stream e n) :
    ∃ q, Path p e.terminals q ∧ q.stream = p.stream.drop n ∧ p.stream[n]? = some q.current ∧
      rule.goal.continues q.current.terminal = false := by
  obtain ⟨k, hk, hclear, hstop⟩ := h.stopped
  obtain ⟨hn, rfl⟩ := List.getElem?_eq_some_iff.mp hk
  have hdrop := List.drop_eq_getElem_cons hn
  have hsplit := (List.take_append_drop n p.stream).symm
  rw [hdrop] at hsplit
  -- the tokens of a tree are no errors, so none is met on the way
  have hfront : ∀ j ∈ p.stream.take n, j.terminal.error? = none := fun j hj =>
    (e.not_mem_terminals (h.terminals ▸ List.mem_map_of_mem hj)).1
  obtain ⟨q, hpath, hq⟩ := exists_path_of_stream_eq hsplit hfront hclear
  obtain ⟨js, hjs⟩ := q.exists_stream_eq_cons
  obtain ⟨hcurrent, -⟩ := List.cons.inj (hjs.symm.trans hq)
  rw [← hcurrent] at hk hstop
  exact ⟨q, h.terminals ▸ hpath, hq.trans hdrop.symm, hk, hstop⟩

/-- A phrase is read. -/
theorem exists_run (h : Phrase rule p.stream e n) :
    ∃ q, p.run rule.goal = (.ok e, q) ∧ p.stream[n]? = some q.current ∧
      q.stream = p.stream.drop n := by
  obtain ⟨q, hpath, hstream, hcurrent, hstop⟩ := h.exists_path
  exact ⟨q, (run_eq_ok_iff rule).mpr ⟨hpath, hstop, h.admitted, h.canonical⟩, hcurrent, hstream⟩

/-- Behind a phrase that was read, the token that ends it is current. -/
theorem behind (h : Phrase rule p.stream e n) (hrun : p.run rule.goal = (.ok e, q)) :
    p.stream[n]? = some q.current ∧ q.stream = p.stream.drop n := by
  obtain ⟨q', hq', hbehind⟩ := h.exists_run
  obtain ⟨-, rfl⟩ := Prod.mk.inj (hrun.symm.trans hq')
  exact hbehind

/-- A stream begins with at most one phrase of a rule. -/
theorem unique (h : Phrase rule p.stream e n) (h' : Phrase rule p.stream e' n') :
    e = e' ∧ n = n' := by
  obtain ⟨q, hq, -⟩ := h.exists_run
  obtain ⟨q', hq', -⟩ := h'.exists_run
  obtain ⟨he, -⟩ := Prod.mk.inj (hq.symm.trans hq')
  obtain rfl := Except.ok.inj he
  exact ⟨rfl, h.length_terminals.symm.trans h'.length_terminals⟩

end Phrase

/-- What a rule reads is a phrase. -/
theorem exists_phrase_of_run (hp : p.IsClear) (h : p.run rule.goal = (.ok e, q)) :
    ∃ n, Phrase rule p.stream e n := by
  obtain ⟨hpath, hstop, hadm, hcan⟩ := (run_eq_ok_iff rule).mp h
  obtain ⟨ks, hks, hstream⟩ := hpath.exists_stream_eq
  obtain ⟨js, hjs⟩ := q.exists_stream_eq_cons
  refine ⟨ks.length, ?_, hcan, hadm, q.current, ?_, hpath.isClear hp, hstop⟩
  · rw [hstream, List.take_left, hks]
  · rw [hstream, hjs, List.getElem?_append_right (Nat.le_refl _), Nat.sub_self]
    rfl

/-- A chain gives up where its first operand does. -/
theorem run_goal_of_giveUp {kind : ParseError.Kind} (l : Level)
    (h : p.run l.operand = p.giveUp kind) : p.run l.goal = p.giveUp kind := by
  rw [run_goal, h]
  rfl

/-- No rule begins with a lexical error: it gives up and consumes nothing. -/
theorem run_of_error {le : LexicalError} (h : p.current.terminal = .error le) (rule : Rule) :
    p.run rule.goal = p.giveUp .expectedExpression := by
  have hprimary : p.run .primary = p.giveUp .expectedExpression := by
    rw [run_primary, choose_of_none (by rw [h]; rfl), choose_of_none (by rw [h]; rfl)]
  have hsigned : p.run .signed = p.giveUp .expectedExpression := by
    rw [run_signed_of_primary (by rw [h]; rfl), hprimary]
  have hproduct : p.run .product = p.giveUp .expectedExpression :=
    run_goal_of_giveUp .multiplicative hsigned
  cases rule with
  | primary => exact hprimary
  | signed => exact hsigned
  | product => exact hproduct
  | sum => exact run_goal_of_giveUp .additive hproduct

/-- Where no phrase begins, a rule ends with a parse error at the token it has come to. -/
theorem exists_error_of_not_phrase (hp : p.IsClear) (hnone : ¬ ∃ e n, Phrase rule p.stream e n) :
    ∃ f q, p.run rule.goal = (.error (.parse f), q) ∧ f.token = q.current := by
  have hreported := reported_run rule.goal p
  cases hrun : p.run rule.goal with
  | mk r q =>
    rw [hrun] at hreported
    cases r with
    | ok e => exact absurd ⟨e, exists_phrase_of_run hp hrun⟩ hnone
    | error f =>
      obtain ⟨err, rfl, htoken⟩ := (hreported f rfl).exists_eq
      exact ⟨err, q, rfl, htoken⟩

/-- **The rules are exact from everywhere.** In front of a token that is no lexical error, a rule
gives a tree exactly if the stream begins with a phrase for that tree, and then the token behind the
phrase is current. There is at most one phrase; where there is none, the rule ends with a parse error
at the token it has come to. In front of a lexical error it does so at once. -/
theorem run_exact (rule : Rule) (p : Parser) :
    (p.IsClear →
      (∀ e, (∃ q, p.run rule.goal = (.ok e, q)) ↔ ∃ n, Phrase rule p.stream e n) ∧
      (∀ e n q, Phrase rule p.stream e n → p.run rule.goal = (.ok e, q) →
        p.stream[n]? = some q.current ∧ q.stream = p.stream.drop n) ∧
      (∀ e n e' n', Phrase rule p.stream e n → Phrase rule p.stream e' n' → e = e' ∧ n = n') ∧
      ((¬ ∃ e n, Phrase rule p.stream e n) →
        ∃ f q, p.run rule.goal = (.error (.parse f), q) ∧ f.token = q.current)) ∧
    ∀ le, p.current.terminal = .error le →
      ∃ f, p.run rule.goal = (.error (.parse f), p) ∧ f.token = p.current := by
  constructor
  · intro hp
    refine ⟨fun e => ⟨fun ⟨q, h⟩ => exists_phrase_of_run hp h, fun ⟨n, h⟩ => ?_⟩,
      fun e n q => Phrase.behind, fun e n e' n' => Phrase.unique, exists_error_of_not_phrase hp⟩
    obtain ⟨q, hq, -⟩ := h.exists_run
    exact ⟨q, hq⟩
  · intro le hle
    exact ⟨_, run_of_error hle rule, rfl⟩

end Reckoner.Parser
