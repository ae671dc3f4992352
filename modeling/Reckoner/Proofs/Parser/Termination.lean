import Mathlib.Logic.Function.Iterate
import Reckoner.Proofs.Parser.Completeness
import Reckoner.Proofs.Parser.Trace

/-!
# Termination of the rules

Reading a goal takes one token after another off the stream and stops in front of the end at the
latest. What is left is counted by `Parser.pending`: the tokens in front of the end, the current one
included. Nothing else bounds the rules, and it bounds them from every parser, also from one at
which a lexical error or the end is current.

* What is pending pays for what is pulled, one token for one token (`Parser.spends_states`). So
  nothing is pulled at the end (`Parser.Visits.atEnd_eq_false`).
* `Parser.Calls` lists the calls that a goal makes. The step lemma: every call has fewer tokens
  pending, or stands at the same place and is of the next lower level (`Parser.Calls.lowers`).
* The run lemma: so the recursion is over after as many levels as `Parser.depth` counts, and
  whatever would be answered to deeper calls does not matter (`Parser.iterate_expand`).

Main statement: `Parser.run_within_pending`.
-/

namespace Reckoner

/-- Every tree has a terminal. -/
theorem Expr.terminals_ne_nil (e : Expr) : e.terminals ≠ [] := by
  induction e with
  | parsed e ih => exact ih
  | _ => simp [terminals]

namespace Parser

variable {p q r : Parser} {g g' : Goal}

/-! ### What is left to read -/

/-- How many tokens are **pending**: those in front of the end, the current one included. -/
def pending (p : Parser) : Nat := p.stream.countP fun k => !k.terminal.isFinish

/-- At the end nothing is pending. -/
theorem pending_of_atEnd (h : p.atEnd = true) : p.pending = 0 := by
  have hcurrent : (!p.current.terminal.isFinish) = false := congrArg (!·) h
  rw [pending, stream_of_atEnd h, List.countP_singleton, hcurrent]
  rfl

/-- In front of the end the current token is pending, and what is pending behind it. -/
theorem pending_eq_succ (h : p.atEnd = false) : p.pending = p.next.pending + 1 := by
  have hcurrent : (!p.current.terminal.isFinish) = true := congrArg (!·) h
  rw [pending, stream_eq_cons h]
  exact List.countP_cons_of_pos hcurrent

theorem Path.pending_eq {ts : List Terminal} (h : Path p ts q) :
    p.pending = ts.length + q.pending := by
  induction h with
  | refl => exact (Nat.zero_add _).symm
  | step hp _ _ ih =>
    rw [pending_eq_succ hp, ih, List.length_cons]
    omega

/-- **A rule that gives a tree has consumed a token.** -/
theorem pending_lt_of_run {rule : Rule} {e : Expr} (h : p.run rule.goal = (.ok e, q)) :
    q.pending < p.pending := by
  have hpath := ((run_eq_ok_iff rule).mp h).1
  have hlength := List.length_pos_iff.mpr e.terminals_ne_nil
  rw [hpath.pending_eq]
  omega

/-- The operands of a chain are read by rules. -/
theorem Level.exists_rule_operand (l : Level) : ∃ rule : Rule, l.operand = rule.goal := by
  cases l with
  | additive => exact ⟨.product, rfl⟩
  | multiplicative => exact ⟨.signed, rfl⟩

/-- What is accepted was pending. -/
theorem pending_lt_of_accept {α : Type} {select : Terminal → Option α} {a : α}
    (h : p.accept select = (.ok (some a), q)) : q.pending < p.pending := by
  rcases p.accept_cases select with ⟨-, hr⟩ | ⟨b, hp, -, -, hr⟩ | ⟨b, e, -, -, -, hr⟩ <;>
    cases h.symm.trans hr
  rw [pending_eq_succ hp]
  exact Nat.lt_succ_self _

/-! ### What is pulled -/

/-- States **spend** what is pending: with each of them one token less is left. -/
def Spends {α : Type} (p : Parser) (ps : List Parser) (o : Outcome α) : Prop :=
  ps.length + o.2.pending = p.pending

namespace Spends

variable {α β : Type} {ps : List Parser}

theorem nil {o : Outcome α} (h : o.2 = p) : Spends p [] o := by
  rw [Spends, h, List.length_nil, Nat.zero_add]

theorem andThen {o : Outcome α} {next : α → Parser → Outcome β}
    {nextStates : (a : α) → (q : Parser) → o = (.ok a, q) → List Parser} (h : Spends p ps o)
    (hnext : ∀ a q h, Spends q (nextStates a q h) (next a q)) :
    Spends p (ps ++ Outcome.states o nextStates) (Outcome.andThen o next) := by
  obtain ⟨f | a, q⟩ := o
  · rw [Spends, Outcome.states, List.append_nil]
    exact h
  · have hq : (nextStates a q rfl).length + (next a q).2.pending = q.pending := hnext a q rfl
    have hp : ps.length + q.pending = p.pending := h
    rw [Spends, Outcome.states, List.length_append, Outcome.andThen, Nat.add_assoc, hq, hp]

theorem choose {select : Terminal → Option α} {accepted : α → Parser → Outcome β}
    {otherwise : Outcome β}
    {acceptedStates : (a : α) → (q : Parser) → p.accept select = (.ok (some a), q) → List Parser}
    {otherStates : List Parser} (refused : Spends p otherStates otherwise)
    (taken : ∀ a h, p.atEnd = false → select p.current.terminal = some a →
      Spends p.next (acceptedStates a p.next h) (accepted a p.next)) :
    Spends p (p.chooseStates select acceptedStates otherStates)
      (p.choose select accepted otherwise) := by
  rcases p.accept_cases select with ⟨-, hr⟩ | ⟨a, hp, hs, -, hr⟩ | ⟨a, e, hp, -, -, hr⟩
  all_goals
    rw [Parser.choose, hr]
    unfold chooseStates
    split <;> rename_i h <;> cases h.symm.trans hr
  · exact refused
  · have hnext := taken a hr hp hs
    rw [Spends] at hnext ⊢
    rw [pending_eq_succ hp, ← hnext, List.length_cons]
    exact Nat.add_right_comm _ _ _
  · rw [Spends, pending_eq_succ hp, List.length_singleton]
    exact Nat.add_comm _ _

end Spends

/-- **The states of a reading spend what is pending**, and what is left is still pending. -/
theorem spends_states (g : Goal) (p : Parser) : Spends p (p.states g) (p.run g) := by
  induction g, p using run_induction with
  | goal l p hop htail =>
    rw [run_goal, states_goal]
    exact hop.andThen fun left q h => htail left q (remaining_le_of_run h)
  | tail l left p hop htail =>
    rw [run_tail, states_tail]
    refine .choose (.nil rfl) fun o _ hp _ => ?_
    have hlt := remaining_next_lt hp
    exact (hop _ hlt).andThen fun right r h =>
      htail _ r (Nat.lt_of_le_of_lt (remaining_le_of_run h) hlt)
  | signed p hsigned hprimary =>
    rw [run_signed, states_signed]
    refine .choose hprimary fun o _ hp hs => ?_
    obtain ⟨sign, rfl⟩ := Operator.exists_sign (Level.additive.select_eq_some.mp hs).2
    rw [Sign.asSign_operator]
    dsimp only
    rw [Spends, Outcome.snd_andThen_ok]
    exact hsigned _ (remaining_next_lt hp)
  | primary p hsum =>
    rw [run_primary, states_primary]
    refine .choose ?_ fun _ _ _ _ => .nil rfl
    refine .choose (.nil rfl) fun _ _ hp _ => ?_
    refine (hsum _ (remaining_next_lt hp)).andThen fun e r _ => ?_
    exact .choose (.nil rfl) fun _ _ _ _ => .nil rfl

/-- Where each state takes one token, none of those behind which another one follows is at the end:
there nothing would be left to take. -/
theorem Visits.atEnd_eq_false {ps : List Parser} (h : Visits p ps q)
    (hs : ps.length + q.pending = p.pending) : ∀ r ∈ (p :: ps).dropLast, r.atEnd = false := by
  induction h with
  | nil p => nofun
  | @cons p q ps _ ih =>
    have hp : p.atEnd = false := by
      refine Bool.eq_false_iff.mpr fun hend => ?_
      rw [pending_of_atEnd hend, List.length_cons] at hs
      omega
    rw [pending_eq_succ hp, List.length_cons] at hs
    rw [List.dropLast_cons_cons]
    exact List.forall_mem_cons.mpr ⟨hp, ih (by omega)⟩

/-! ### Calls -/

/-- The **calls** that reading a goal makes, with the parsers at which they are made. -/
inductive Calls : Goal → Parser → Goal → Parser → Prop where
  /-- A chain begins with an operand. -/
  | operand (l : Level) (p : Parser) : Calls l.goal p l.operand p
  /-- Behind the first operand its repetition begins. -/
  | repetition {l : Level} {p q : Parser} {left : Expr} (h : p.run l.operand = (.ok left, q)) :
      Calls l.goal p (l.tail left) q
  /-- A turn of a repetition reads an operand behind its operator. -/
  | right {l : Level} {p q : Parser} {left : Expr} {o : Operator}
      (h : p.accept l.select = (.ok (some o), q)) : Calls (l.tail left) p l.operand q
  /-- Behind that operand the next turn begins. -/
  | turn {l : Level} {p q r : Parser} {left right : Expr} {o : Operator}
      (h : p.accept l.select = (.ok (some o), q)) (h' : q.run l.operand = (.ok right, r)) :
      Calls (l.tail left) p (l.tail (.binary o left right)) r
  /-- Behind a sign there may be more signs. -/
  | sign {p q : Parser} {o : Operator} (h : p.accept additive? = (.ok (some o), q)) :
      Calls .signed p .signed q
  /-- Without a sign there is a number or a parenthesis. -/
  | unsigned (p : Parser) : Calls .signed p .primary p
  /-- Behind a parenthesis there is a sum. -/
  | content {p q : Parser} (h : p.accept (ofKind? .leftParen) = (.ok (some ()), q)) :
      Calls .primary p .sum q

/-- A goal **descends** to the next lower level when it reads something of that level at the place
where it begins itself. -/
inductive Goal.Descends : Goal → Goal → Prop where
  | sum : Descends .sum .product
  | product : Descends .product .signed
  | signed : Descends .signed .primary

/-- A lower level has a lower rank. -/
theorem Goal.Descends.rank_lt (h : g.Descends g') : g'.rank < g.rank := by
  cases h <;> decide

/-- A chain descends to its operands. -/
theorem Level.descends (l : Level) : l.goal.Descends l.operand := by
  cases l with
  | additive => exact .sum
  | multiplicative => exact .product

/-- **The step lemma**: a call has fewer tokens pending, unless a goal descends where it begins. So
every turn of a repetition has fewer, and every call behind a sign or a parenthesis. -/
theorem Calls.lowers (h : Calls g p g' q) :
    q.pending < p.pending ∨ q = p ∧ g.Descends g' := by
  have operandLt : ∀ {l : Level} {p q : Parser} {e : Expr}, p.run l.operand = (.ok e, q) →
      q.pending < p.pending := by
    intro l p q e h
    obtain ⟨rule, hrule⟩ := l.exists_rule_operand
    exact pending_lt_of_run (hrule ▸ h)
  cases h with
  | operand l => exact .inr ⟨rfl, l.descends⟩
  | repetition h => exact .inl (operandLt h)
  | right h => exact .inl (pending_lt_of_accept h)
  | turn h h' => exact .inl (Nat.lt_trans (operandLt h') (pending_lt_of_accept h))
  | sign h => exact .inl (pending_lt_of_accept h)
  | unsigned => exact .inr ⟨rfl, .signed⟩
  | content h => exact .inl (pending_lt_of_accept h)

/-- Calls descend in the order of what is pending first and of the level second. -/
theorem Calls.lex (h : Calls g p g' q) :
    Prod.Lex (· < ·) (· < ·) (q.pending, g'.rank) (p.pending, g.rank) := by
  rcases h.lowers with hlt | ⟨rfl, hdescends⟩
  · exact .left _ _ hlt
  · exact .right _ hdescends.rank_lt

/-! ### The recursion -/

/-- The rules **expanded** once: what a goal does, its calls being answered by `answer`. -/
def expand (answer : Goal → Parser → Outcome Expr) : Goal → Parser → Outcome Expr
  | .sum, p => Outcome.andThen (answer .product p) fun left q => answer (.sumTail left) q
  | .sumTail left, p =>
    p.choose additive?
      (fun o q => Outcome.andThen (answer .product q) fun right r =>
        answer (.sumTail (.binary o left right)) r)
      (.ok left, p)
  | .product, p => Outcome.andThen (answer .signed p) fun left q => answer (.productTail left) q
  | .productTail left, p =>
    p.choose multiplicative?
      (fun o q => Outcome.andThen (answer .signed q) fun right r =>
        answer (.productTail (.binary o left right)) r)
      (.ok left, p)
  | .signed, p =>
    p.choose additive?
      (fun o q =>
        match o.asSign with
        | .error f => (.error f, q)
        | .ok s => Outcome.andThen (answer .signed q) fun e r => (.ok (.signed s e), r))
      (answer .primary p)
  | .primary, p =>
    p.choose number? (fun x q => (.ok (.number x), q))
      (p.choose (ofKind? .leftParen)
        (fun _ q => Outcome.andThen (answer .sum q) fun e r =>
          r.choose (ofKind? .rightParen) (fun _ s => (.ok (.grouping e), s))
            (giveUp .expectedRightParen r))
        (giveUp .expectedExpression p))

section Expand

variable {answer : Goal → Parser → Outcome Expr}

theorem expand_goal (l : Level) (p : Parser) :
    expand answer l.goal p =
      Outcome.andThen (answer l.operand p) fun left q => answer (l.tail left) q := by
  cases l <;> rfl

theorem expand_tail (l : Level) (left : Expr) (p : Parser) :
    expand answer (l.tail left) p =
      p.choose l.select
        (fun o q => Outcome.andThen (answer l.operand q) fun right r =>
          answer (l.tail (.binary o left right)) r)
        (.ok left, p) := by
  cases l <;> rfl

variable {α β : Type}

/-- Only what follows a result matters. -/
theorem Outcome.andThen_congr {o : Outcome α} {next next' : α → Parser → Outcome β}
    (h : ∀ a q, o = (.ok a, q) → next a q = next' a q) :
    Outcome.andThen o next = Outcome.andThen o next' := by
  obtain ⟨f | a, q⟩ := o
  · rfl
  · exact h a q rfl

/-- Only what follows an accepted token matters, and the other alternative. -/
theorem choose_congr {select : Terminal → Option α} {accepted accepted' : α → Parser → Outcome β}
    {otherwise otherwise' : Outcome β}
    (h : ∀ a q, p.accept select = (.ok (some a), q) → accepted a q = accepted' a q)
    (h' : otherwise = otherwise') :
    p.choose select accepted otherwise = p.choose select accepted' otherwise' := by
  refine Outcome.andThen_congr fun a? q hq => ?_
  cases a? with
  | none => exact h'
  | some a => exact h a q hq

/-- **What a goal does depends on its calls alone.** Where they are answered as the rules answer
them, so is the goal. -/
theorem expand_eq_run (h : ∀ g' q, Calls g p g' q → answer g' q = q.run g') :
    expand answer g p = p.run g := by
  have chain : ∀ l : Level, (∀ g' q, Calls l.goal p g' q → answer g' q = q.run g') →
      expand answer l.goal p = p.run l.goal := by
    intro l h
    rw [expand_goal, run_goal, h _ _ (.operand l p)]
    exact Outcome.andThen_congr fun left q hq => h _ _ (.repetition hq)
  have turns : ∀ (l : Level) (left : Expr),
      (∀ g' q, Calls (l.tail left) p g' q → answer g' q = q.run g') →
        expand answer (l.tail left) p = p.run (l.tail left) := by
    intro l left h
    rw [expand_tail, run_tail]
    refine choose_congr (fun o q hq => ?_) rfl
    rw [h _ _ (.right hq)]
    exact Outcome.andThen_congr fun right r hr => h _ _ (.turn hq hr)
  cases g with
  | sum => exact chain .additive h
  | product => exact chain .multiplicative h
  | sumTail left => exact turns .additive left h
  | productTail left => exact turns .multiplicative left h
  | signed =>
    rw [expand, run_signed]
    refine choose_congr (fun o q hq => ?_) (h _ _ (.unsigned p))
    cases o.asSign with
    | error f => rfl
    | ok s => exact congrArg (Outcome.andThen · _) (h _ _ (.sign hq))
  | primary =>
    rw [expand, run_primary]
    refine choose_congr (fun _ _ _ => rfl) (choose_congr (fun _ q hq => ?_) rfl)
    rw [h _ _ (.content hq)]

end Expand

/-- A bound on how deep the calls of a goal are nested, the turns of a repetition being counted as
nested: each pending token is behind at most four levels. -/
def depth (g : Goal) (p : Parser) : Nat := 4 * p.pending + g.rank

theorem Calls.depth_lt (h : Calls g p g' q) : depth g' q < depth g p := by
  have hrank : g'.rank < 4 := by
    unfold Goal.rank
    split <;> decide
  unfold depth
  rcases h.lowers with hlt | ⟨rfl, hdescends⟩
  · omega
  · have := hdescends.rank_lt
    omega

/-- **The run lemma**: expanding the rules more often than `depth` counts gives what they give. No
call is left whose answer matters. -/
theorem iterate_expand {n : Nat} (h : depth g p < n) (answer : Goal → Parser → Outcome Expr) :
    expand^[n] answer g p = p.run g := by
  induction n generalizing g p with
  | zero => exact absurd h (Nat.not_lt_zero _)
  | succ n ih =>
    rw [Function.iterate_succ_apply']
    exact expand_eq_run fun g' q hcall =>
      ih (Nat.lt_of_lt_of_le hcall.depth_lt (Nat.le_of_lt_succ h))

/-- **The rules terminate, and read no more than is pending.** From every parser, whatever token is
current, the recursion of a rule ends: expanded deep enough, nothing is left of it. Every call in it
descends in the order of what is pending first and of the level second, and unless it is that of the
next lower level at the same place, it has fewer tokens pending than the goal that makes it: so does
every turn of a repetition, and every call behind a sign or a parenthesis. A rule pulls at most as
many tokens as are pending, and none once the end is current. If it gives a tree, it has pulled at
least one, and fewer are pending than before. -/
theorem run_within_pending (rule : Rule) (p : Parser) :
    (∀ n > depth rule.goal p, ∀ answer, expand^[n] answer rule.goal p = p.run rule.goal) ∧
    (∀ g q g' q', Calls g q g' q' →
      Prod.Lex (· < ·) (· < ·) (q'.pending, g'.rank) (q.pending, g.rank) ∧
        (q'.pending < q.pending ∨ q' = q ∧ g.Descends g')) ∧
    (p.states rule.goal).length ≤ p.pending ∧
    (∀ q ∈ (p :: p.states rule.goal).dropLast, q.atEnd = false) ∧
    ∀ e q, p.run rule.goal = (.ok e, q) → p.states rule.goal ≠ [] ∧ q.pending < p.pending := by
  have hspends : (p.states rule.goal).length + (p.run rule.goal).2.pending = p.pending :=
    spends_states rule.goal p
  refine ⟨fun n hn => iterate_expand hn, fun g q g' q' h => ⟨h.lex, h.lowers⟩, by omega,
    (visits_states rule.goal p).atEnd_eq_false hspends, fun e q h => ?_⟩
  have hlt := pending_lt_of_run h
  refine ⟨fun hnil => ?_, hlt⟩
  rw [hnil, h, List.length_nil, Nat.zero_add] at hspends
  exact absurd hspends (Nat.ne_of_lt hlt)

end Parser

end Reckoner
