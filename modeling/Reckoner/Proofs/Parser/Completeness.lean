import Reckoner.Proofs.Parser.Soundness

/-!
# What can be read

Along a path over the terminals of a canonical tree the rules read that tree (`run_eq_ok_iff`).

The induction is on the tree, and a chain of operations is not read as a whole: its left operand is
the beginning of a longer chain. So the statement about a chain is not that reading it gives the
tree, but that reading it comes down to reading on behind the tree (`ReadsBack.goal`).
-/

namespace Reckoner.Parser

/-- Between two parsers a tree is **read back**: as an operand, if it is one, and as the first part
of every chain that it can begin. -/
structure ReadsBack (e : Expr) (p q : Parser) : Prop where
  signed : e.isOperation = false → p.run .signed = (.ok e, q)
  goal : ∀ l : Level, l.goal.admits e = true →
    l.operand.continues q.current.terminal = false → p.run l.goal = q.run (l.tail e)

variable {e : Expr} {p q : Parser}

/-- A chain ends where no operator of its level follows. -/
theorem run_tail_of_continues (l : Level) (h : l.goal.continues q.current.terminal = false) :
    q.run (l.tail e) = (.ok e, q) := by
  rw [l.continues_goal, Bool.or_eq_false_iff] at h
  rw [run_tail]
  exact choose_of_none (by simpa using h.2)

/-- A chain goes on behind an operand. -/
theorem run_goal_of_operand (l : Level) (h : p.run l.operand = (.ok e, q)) :
    p.run l.goal = q.run (l.tail e) := by
  rw [run_goal, h]
  rfl

namespace ReadsBack

/-- An operand is the first part of a chain of either level. -/
theorem of_signed (h : p.run .signed = (.ok e, q)) : ReadsBack e p q := by
  have hproduct := run_goal_of_operand .multiplicative h
  refine ⟨fun _ => h, fun l _ hcont => ?_⟩
  cases l with
  | multiplicative => exact hproduct
  | additive =>
    refine run_goal_of_operand .additive ?_
    exact hproduct.trans (run_tail_of_continues .multiplicative hcont)

/-- Reading an operand of a chain gives the tree, if the operand does not go on behind it. -/
theorem operand (h : ReadsBack e p q) (l : Level) (hadm : l.operand.admits e = true)
    (hcont : l.operand.continues q.current.terminal = false) :
    p.run l.operand = (.ok e, q) := by
  cases l with
  | multiplicative => exact h.signed (by simpa [Level.operand, Goal.admits] using hadm)
  | additive =>
    exact (h.goal .multiplicative hadm rfl).trans (run_tail_of_continues .multiplicative hcont)

/-- Two trees that are read back around an operator make an operation that is. -/
theorem binary {o : Operator} {left right : Expr} {m : Parser} (hl : ReadsBack left p m)
    (hm : m.current.terminal = .operator o) (hend : m.atEnd = false) (hc : m.next.IsClear)
    (hr : ReadsBack right m.next q) (hcan : (Expr.binary o left right).isCanonical = true) :
    ReadsBack (.binary o left right) p q := by
  have chain : ∀ l : Level, l.holds o = true →
      l.operand.continues q.current.terminal = false →
      p.run l.goal = q.run (l.tail (.binary o left right)) := by
    intro l ho hcont
    simp only [l.isCanonical_binary ho, Bool.and_eq_true] at hcan
    obtain ⟨⟨⟨hadml, hadmr⟩, -⟩, -⟩ := hcan
    have hstop : l.operand.continues m.current.terminal = false := by
      rw [hm]
      cases l <;> cases o <;> first | rfl | cases ho
    have hs : l.select m.current.terminal = some o := l.select_eq_some.mpr ⟨hm, ho⟩
    calc p.run l.goal = m.run (l.tail left) := hl.goal l hadml hstop
      _ = Outcome.andThen (m.next.run l.operand) fun right r =>
            r.run (l.tail (.binary o left right)) := by
          rw [run_tail]
          exact choose_of_isClear hend hs hc
      _ = q.run (l.tail (.binary o left right)) := by
          rw [hr.operand l hadmr hcont]
          rfl
  refine ⟨nofun, fun l hadm hcont => ?_⟩
  cases ho : o.isAdditive with
  | true =>
    cases l with
    | additive => exact chain .additive ho hcont
    | multiplicative =>
      simp [Level.goal, Goal.admits, Expr.isSum, ho] at hadm
  | false =>
    have hmul : Level.multiplicative.holds o = true := by
      simp [Level.holds, Operator.isMultiplicative, ho]
    -- a product is also the first part of a sum
    have hproduct := chain .multiplicative hmul rfl
    cases l with
    | multiplicative => exact hproduct
    | additive =>
      refine run_goal_of_operand .additive ?_
      exact hproduct.trans (run_tail_of_continues .multiplicative hcont)

end ReadsBack

/-- A number or a tree in parentheses is read where no sign begins. -/
theorem run_signed_of_primary (h : additive? p.current.terminal = none) :
    p.run .signed = p.run .primary := by
  rw [run_signed]
  exact choose_of_none h

/-- **Completeness of the rules**: along a path over its terminals a canonical tree is read. -/
theorem readsBack_of_path (hcan : e.isCanonical = true) (h : Path p e.terminals q) :
    ReadsBack e p q := by
  induction e generalizing p q with
  | number x =>
    obtain ⟨hk, hend, hc, hnil⟩ := Path.cons_iff.mp h
    cases hnil
    refine .of_signed ?_
    rw [run_signed_of_primary (by rw [hk]; rfl), run_primary]
    exact choose_of_isClear hend (by rw [hk]; rfl) hc
  | signed s e ih =>
    obtain ⟨hk, hend, hc, htail⟩ := Path.cons_iff.mp h
    rw [Expr.isCanonical, Bool.and_eq_true, Bool.not_eq_true'] at hcan
    have hs : additive? p.current.terminal = some s.operator := by
      rw [hk]
      exact Level.additive.select_eq_some.mpr ⟨rfl, s.isAdditive_operator⟩
    refine .of_signed ?_
    rw [run_signed, choose_of_isClear hend hs hc, Sign.asSign_operator]
    dsimp only
    rw [(ih hcan.2 htail).signed hcan.1]
    rfl
  | binary o left right ihl ihr =>
    obtain ⟨m, hleft, hrest⟩ := Path.append_iff.mp h
    obtain ⟨hk, hend, hc, hright⟩ := Path.cons_iff.mp hrest
    have hparts := hcan
    rw [Expr.isCanonical, Bool.and_eq_true, Bool.and_eq_true] at hparts
    obtain ⟨⟨-, hcl⟩, hcr⟩ := hparts
    exact .binary (ihl hcl hleft) hk hend hc (ihr hcr hright) hcan
  | grouping e ih =>
    obtain ⟨hk, hend, hc, htail⟩ := Path.cons_iff.mp h
    obtain ⟨m, hcontent, hclose⟩ := Path.append_iff.mp htail
    obtain ⟨hk', hend', hc', hnil⟩ := Path.cons_iff.mp hclose
    cases hnil
    have hsum : p.next.run .sum = (.ok e, m) := by
      have hcont : Goal.sum.continues m.current.terminal = false := by
        rw [hk']
        rfl
      exact ((ih hcan hcontent).goal .additive rfl (by rw [hk']; rfl)).trans
        (run_tail_of_continues .additive hcont)
    refine .of_signed ?_
    rw [run_signed_of_primary (by rw [hk]; rfl), run_primary,
      choose_of_none (by rw [hk]; rfl),
      choose_of_isClear (a := ()) hend (by rw [hk]; rfl) hc, hsum]
    exact choose_of_isClear (a := ()) hend' (by rw [hk']; rfl) hc'
  | parsed e => cases hcan

/-! ### The four rules -/

/-- A **rule** of the grammar: a goal that does not go on from a tree. -/
inductive Rule where
  | sum
  | product
  | signed
  | primary

/-- What a rule is to read. `Parser.sum`, `Parser.product`, `Parser.signed` and `Parser.primary` run
these goals. -/
def Rule.goal : Rule → Goal
  | sum => .sum
  | product => .product
  | signed => .signed
  | primary => .primary

@[simp] theorem Rule.before_goal (rule : Rule) : rule.goal.before = [] := by cases rule <;> rfl

theorem Rule.isReady_goal (rule : Rule) (p : Parser) : rule.goal.IsReady p := by
  cases rule <;> trivial

/-- A chain is read along a path over its terminals, if nothing goes on with it. -/
theorem run_goal_of_path (l : Level) (hpath : Path p e.terminals q)
    (hstop : l.goal.continues q.current.terminal = false) (hadm : l.goal.admits e = true)
    (hcan : e.isCanonical = true) : p.run l.goal = (.ok e, q) := by
  have hoperand := hstop
  rw [l.continues_goal, Bool.or_eq_false_iff] at hoperand
  exact ((readsBack_of_path hcan hpath).goal l hadm hoperand.1).trans
    (run_tail_of_continues l hstop)

/-- No sign is in front of what is read as a number or in parentheses. -/
theorem additive?_of_admits_primary (hpath : Path p e.terminals q)
    (hadm : Goal.primary.admits e = true) : additive? p.current.terminal = none := by
  cases e with
  | number | grouping =>
    rw [(Path.cons_iff.mp hpath).1]
    rfl
  | _ => cases hadm

/-- **A rule reads a tree** exactly where the terminals of the tree lead from one parser to the
other, the rule cannot go on behind them, and the tree is canonical and one for this rule. -/
theorem run_eq_ok_iff (rule : Rule) :
    p.run rule.goal = (.ok e, q) ↔
      Path p e.terminals q ∧ rule.goal.continues q.current.terminal = false ∧
        rule.goal.admits e = true ∧ e.isCanonical = true := by
  constructor
  · intro h
    obtain ⟨hcan, hadm, hstop, ts, hpath, hts⟩ := derives_of_run (rule.isReady_goal p) h
    rw [rule.before_goal, List.nil_append] at hts
    exact ⟨hts ▸ hpath, hstop, hadm, hcan⟩
  · rintro ⟨hpath, hstop, hadm, hcan⟩
    cases rule with
    | sum => exact run_goal_of_path .additive hpath hstop hadm hcan
    | product => exact run_goal_of_path .multiplicative hpath hstop hadm hcan
    | signed =>
      exact (readsBack_of_path hcan hpath).signed (by simpa [Rule.goal, Goal.admits] using hadm)
    | primary =>
      have hsigned := (readsBack_of_path hcan hpath).signed
        (by cases e <;> first | rfl | cases hadm)
      exact (run_signed_of_primary (additive?_of_admits_primary hpath hadm)).symm.trans hsigned

/-- Reading a sum gives a tree exactly where its terminals lead from one parser to the other, no
operator follows, and the tree is canonical. -/
theorem sum_eq_ok_iff :
    p.sum = (.ok e, q) ↔
      Path p e.terminals q ∧ Goal.sum.continues q.current.terminal = false ∧
        e.isCanonical = true := by
  refine (run_eq_ok_iff .sum).trans ?_
  constructor
  · exact fun ⟨hpath, hstop, _, hcan⟩ => ⟨hpath, hstop, hcan⟩
  · exact fun ⟨hpath, hstop, hcan⟩ => ⟨hpath, hstop, rfl, hcan⟩

end Reckoner.Parser
