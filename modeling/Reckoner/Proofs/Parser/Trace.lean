import Reckoner.Proofs.Parser.Levels

/-!
# The states of a reading

While a goal is read the parser goes from state to state, each time with another token current.
`Parser.states` lists these states in order: it follows the rules and notes the parser that every
accepted token leaves behind. A reading that fails has its states, too.

Main statement: every state has the next token of the input current, and the last one is the
parser that is left behind (`Parser.visits_states`). So no token is skipped, read twice, or read
without becoming current.
-/

namespace Reckoner.Parser

/-! ### Recording the rules -/

/-- The states behind a result, if there is one. -/
def Outcome.states {α : Type} (r : Outcome α)
    (next : (a : α) → (q : Parser) → r = (.ok a, q) → List Parser) : List Parser :=
  match r, next with
  | (.ok a, q), next => next a q rfl
  | (.error _, _), _ => []

/-- The states from an accepted token on, or those of another alternative. An accepted token makes
the next one current, also if that is a lexical error and the step fails. -/
def chooseStates {α : Type} (p : Parser) (select : Terminal → Option α)
    (accepted : (a : α) → (q : Parser) → p.accept select = (.ok (some a), q) → List Parser)
    (otherwise : List Parser) : List Parser :=
  match h : p.accept select with
  | (.ok (some a), q) => q :: accepted a q h
  | (.ok none, _) => otherwise
  | (.error _, q) => [q]

/-- The **states** that reading a goal goes through, one for each token that becomes current. -/
def states (g : Goal) (p : Parser) : List Parser :=
  match g with
  | .sum =>
    states .product p ++
      Outcome.states (p.run .product) fun left q _ => states (.sumTail left) q
  | .sumTail left =>
    p.chooseStates additive?
      (fun o q _ =>
        states .product q ++
          Outcome.states (q.run .product) fun right r _ =>
            states (.sumTail (.binary o left right)) r)
      []
  | .product =>
    states .signed p ++
      Outcome.states (p.run .signed) fun left q _ => states (.productTail left) q
  | .productTail left =>
    p.chooseStates multiplicative?
      (fun o q _ =>
        states .signed q ++
          Outcome.states (q.run .signed) fun right r _ =>
            states (.productTail (.binary o left right)) r)
      []
  | .signed =>
    p.chooseStates additive?
      (fun o q _ =>
        match o.asSign with
        | .error _ => []
        | .ok _ => states .signed q)
      (states .primary p)
  | .primary =>
    p.chooseStates number? (fun _ _ _ => [])
      (p.chooseStates (ofKind? .leftParen)
        (fun _ q _ =>
          states .sum q ++
            Outcome.states (q.run .sum) fun _ r _ =>
              r.chooseStates (ofKind? .rightParen) (fun _ _ _ => []) [])
        [])
termination_by (p.remaining, g.rank)
decreasing_by
  all_goals simp only [Prod.lex_def, Goal.rank, true_and]
  all_goals
    try have hr := remaining_le_of_run ‹_ = (Except.ok _, _)›
    try have ha := remaining_accept_lt ‹_ = (Except.ok (some _), _)›
    omega

/-! ### The states of each goal -/

theorem states_goal (l : Level) (p : Parser) :
    p.states l.goal =
      p.states l.operand ++
        Outcome.states (p.run l.operand) fun left q _ => q.states (l.tail left) := by
  cases l <;> exact states.eq_def _ _

theorem states_tail (l : Level) (left : Expr) (p : Parser) :
    p.states (l.tail left) =
      p.chooseStates l.select
        (fun o q _ =>
          q.states l.operand ++
            Outcome.states (q.run l.operand) fun right r _ =>
              r.states (l.tail (.binary o left right)))
        [] := by
  cases l <;> exact states.eq_def _ _

theorem states_signed (p : Parser) :
    p.states .signed =
      p.chooseStates additive?
        (fun o q _ =>
          match o.asSign with
          | .error _ => []
          | .ok _ => q.states .signed)
        (p.states .primary) := states.eq_def _ _

theorem states_primary (p : Parser) :
    p.states .primary =
      p.chooseStates number? (fun _ _ _ => [])
        (p.chooseStates (ofKind? .leftParen)
          (fun _ q _ =>
            q.states .sum ++
              Outcome.states (q.run .sum) fun _ r _ =>
                r.chooseStates (ofKind? .rightParen) (fun _ _ _ => []) [])
          []) := states.eq_def _ _

/-! ### Reading on from state to state -/

/-- Changing a result does not change the parser that is left behind. -/
theorem Outcome.snd_andThen_ok {α β : Type} (r : Outcome α) (f : α → β) :
    (Outcome.andThen r fun a q => (.ok (f a), q)).2 = r.2 := by
  obtain ⟨_ | _, _⟩ := r <;> rfl

/-- From a parser on, reading one token after another **visits** states, the last of which is `q`:
each state has the token behind that of the state before. -/
inductive Visits : Parser → List Parser → Parser → Prop where
  | nil (p : Parser) : Visits p [] p
  | cons {p q : Parser} {ps : List Parser} (h : Visits p.next ps q) : Visits p (p.next :: ps) q

namespace Visits

variable {p q r : Parser} {ps qs : List Parser}

theorem append (h : Visits p ps q) (h' : Visits q qs r) : Visits p (ps ++ qs) r := by
  induction h with
  | nil => exact h'
  | cons _ ih => exact .cons (ih h')

/-- Going on with a result visits the states that led to it, and those behind it. -/
theorem andThen {α β : Type} {o : Outcome α} {next : α → Parser → Outcome β}
    {nextStates : (a : α) → (q : Parser) → o = (.ok a, q) → List Parser}
    (h : Visits p ps o.2)
    (hnext : ∀ a q h, Visits q (nextStates a q h) (next a q).2) :
    Visits p (ps ++ Outcome.states o nextStates) (Outcome.andThen o next).2 := by
  obtain ⟨f | a, q⟩ := o
  · exact h.append (.nil q)
  · exact h.append (hnext a q rfl)

/-- An alternative visits the state behind an accepted token and what follows it, or what the other
alternative visits. -/
theorem choose {α β : Type} {select : Terminal → Option α}
    {accepted : α → Parser → Outcome β} {otherwise : Outcome β}
    {acceptedStates : (a : α) → (q : Parser) → p.accept select = (.ok (some a), q) → List Parser}
    {otherStates : List Parser} (refused : Visits p otherStates otherwise.2)
    (taken : ∀ a h, p.atEnd = false → select p.current.terminal = some a →
      Visits p.next (acceptedStates a p.next h) (accepted a p.next).2) :
    Visits p (p.chooseStates select acceptedStates otherStates)
      (p.choose select accepted otherwise).2 := by
  rcases p.accept_cases select with ⟨-, hr⟩ | ⟨a, hp, hs, -, hr⟩ | ⟨a, e, -, -, -, hr⟩
  all_goals
    rw [Parser.choose, hr]
    unfold chooseStates
    split <;> rename_i h <;> cases h.symm.trans hr
  · exact refused
  · exact .cons (taken a h hp hs)
  · exact .cons (.nil _)

end Visits

/-- **Reading a goal visits its states**, and the last one is the parser that is left behind. -/
theorem visits_states (g : Goal) (p : Parser) : Visits p (p.states g) (p.run g).2 := by
  induction g, p using run_induction with
  | goal l p hop htail =>
    rw [run_goal, states_goal]
    exact hop.andThen fun left q h => htail left q (remaining_le_of_run h)
  | tail l left p hop htail =>
    rw [run_tail, states_tail]
    refine .choose (.nil p) fun o _ hp _ => ?_
    have hlt := remaining_next_lt hp
    exact (hop _ hlt).andThen fun right r h =>
      htail _ r (Nat.lt_of_le_of_lt (remaining_le_of_run h) hlt)
  | signed p hsigned hprimary =>
    rw [run_signed, states_signed]
    refine .choose hprimary fun o _ hp hs => ?_
    obtain ⟨sign, rfl⟩ := Operator.exists_sign (Level.additive.select_eq_some.mp hs).2
    rw [Sign.asSign_operator]
    dsimp only
    rw [Outcome.snd_andThen_ok]
    exact hsigned _ (remaining_next_lt hp)
  | primary p hsum =>
    rw [run_primary, states_primary]
    refine .choose ?_ fun _ _ _ _ => .nil _
    refine .choose (.nil p) fun _ _ hp _ => ?_
    refine (hsum _ (remaining_next_lt hp)).andThen fun e r _ => ?_
    exact .choose (.nil r) fun _ _ _ _ => .nil _

end Reckoner.Parser
