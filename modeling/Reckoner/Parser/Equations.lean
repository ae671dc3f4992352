import Reckoner.Parser.Rules

/-!
# The rules as equations

What reading a goal amounts to, goal by goal, in terms of `Parser.run` and `Parser.accept` alone.
These equations determine `Parser.run`: together with the bound `remaining_run_le` they are all
that a proof about the rules has to know.
-/

namespace Reckoner.Parser

/-- Go on with the result of a step, if it has one. -/
def Outcome.andThen {α β : Type} (r : Outcome α) (next : α → Parser → Outcome β) : Outcome β :=
  match r with
  | (.ok a, q) => next a q
  | (.error f, q) => (.error f, q)

/-- Give up at the current token. -/
def giveUp {α : Type} (kind : ParseError.Kind) (p : Parser) : Outcome α :=
  (.error (.unexpected kind p.current), p)

/-- Go on behind an accepted token, or with another alternative. -/
def choose {α β : Type} (p : Parser) (select : Terminal → Option α)
    (accepted : α → Parser → Outcome β) (otherwise : Outcome β) : Outcome β :=
  Outcome.andThen (p.accept select) fun a q =>
    match a with
    | some a => accepted a q
    | none => otherwise

/-- A goal leaves no more to read than there was. -/
theorem remaining_run_le (g : Goal) (p : Parser) : (p.run g).2.remaining ≤ p.remaining :=
  (derive g p).2

/-! ### Bounded outcomes without their bounds -/

theorem Bounded.val_weaken {α : Type} {m n : Nat} (r : Bounded α m) (h : m ≤ n) :
    (r.weaken h).1 = r.1 := rfl

theorem Bounded.val_andThen {α β : Type} {n : Nat} (r : Bounded α n)
    (next : α → (q : Parser) → q.remaining ≤ n → Bounded β n) (next' : α → Parser → Outcome β)
    (h : ∀ a q hq, (next a q hq).1 = next' a q) :
    (r.andThen next).1 = Outcome.andThen r.1 next' := by
  obtain ⟨⟨a | f, q⟩, hr⟩ := r
  · rfl
  · exact h _ _ _

theorem Bounded.val_ifAccepts {α β : Type} {n : Nat} {p : Parser} {select : Terminal → Option α}
    {hp : p.remaining ≤ n}
    {accepted : α → (q : Parser) → q.remaining < p.remaining → Bounded β n}
    {otherwise : Unit → Bounded β n} (accepted' : α → Parser → Outcome β)
    (otherwise' : Outcome β) (h : ∀ a q hq, (accepted a q hq).1 = accepted' a q)
    (h' : (otherwise ()).1 = otherwise') :
    (Bounded.ifAccepts p select hp accepted otherwise).1 =
      p.choose select accepted' otherwise' := by
  unfold Bounded.ifAccepts choose Outcome.andThen
  split <;> rename_i heq <;> simp [heq, h, h']

/-! ### One equation for each goal -/

theorem run_sum (p : Parser) :
    p.run .sum = Outcome.andThen (p.run .product) fun left q => q.run (.sumTail left) := by
  unfold run
  rw [derive]
  exact Bounded.val_andThen _ _ _ fun _ _ _ => rfl

theorem run_sumTail (left : Expr) (p : Parser) :
    p.run (.sumTail left) =
      p.choose additive?
        (fun o q => Outcome.andThen (q.run .product) fun right r =>
          r.run (.sumTail (.binary o left right)))
        (.ok left, p) := by
  unfold run
  rw [derive]
  refine Bounded.val_ifAccepts _ _ (fun o q hq => ?_) rfl
  rw [Bounded.val_weaken]
  exact Bounded.val_andThen _ _ _ fun _ _ _ => rfl

theorem run_product (p : Parser) :
    p.run .product =
      Outcome.andThen (p.run .signed) fun left q => q.run (.productTail left) := by
  unfold run
  rw [derive]
  exact Bounded.val_andThen _ _ _ fun _ _ _ => rfl

theorem run_productTail (left : Expr) (p : Parser) :
    p.run (.productTail left) =
      p.choose multiplicative?
        (fun o q => Outcome.andThen (q.run .signed) fun right r =>
          r.run (.productTail (.binary o left right)))
        (.ok left, p) := by
  unfold run
  rw [derive]
  refine Bounded.val_ifAccepts _ _ (fun o q hq => ?_) rfl
  rw [Bounded.val_weaken]
  exact Bounded.val_andThen _ _ _ fun _ _ _ => rfl

theorem run_signed (p : Parser) :
    p.run .signed =
      p.choose additive?
        (fun o q =>
          match o.asSign with
          | .error f => (.error f, q)
          | .ok s => Outcome.andThen (q.run .signed) fun e r => (.ok (.signed s e), r))
        (p.run .primary) := by
  unfold run
  rw [derive]
  refine Bounded.val_ifAccepts _ _ (fun o q hq => ?_) rfl
  cases o.asSign with
  | error f => rfl
  | ok s =>
    dsimp only
    rw [Bounded.val_weaken]
    exact Bounded.val_andThen _ _ _ fun _ _ _ => rfl

theorem run_primary (p : Parser) :
    p.run .primary =
      p.choose number? (fun x q => (.ok (.number x), q))
        (p.choose (ofKind? .leftParen)
          (fun _ q => Outcome.andThen (q.run .sum) fun e r =>
            r.choose (ofKind? .rightParen) (fun _ s => (.ok (.grouping e), s))
              (giveUp .expectedRightParen r))
          (giveUp .expectedExpression p)) := by
  unfold run
  rw [derive]
  refine Bounded.val_ifAccepts _ _ (fun _ _ _ => rfl) ?_
  refine Bounded.val_ifAccepts _ _ (fun _ q hq => ?_) rfl
  rw [Bounded.val_weaken]
  refine Bounded.val_andThen _ _ _ fun e r hr => ?_
  exact Bounded.val_ifAccepts _ _ (fun _ _ _ => rfl) rfl

end Reckoner.Parser
