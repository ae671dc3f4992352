import Reckoner.Proofs.Expr.Canonical
import Reckoner.Proofs.Parser.Lookahead

/-!
# The two binary levels

Sums and products are read in the same way: an operand of the level, then operators of the level,
each with one more operand. `Level` names what differs, so that the rules of both levels are one
pair of equations (`run_goal`, `run_tail`), and a proof about all goals has four cases
(`run_induction`).

`Goal.continues` says which terminals a reading of a goal cannot leave behind, and `Goal.admits`
which trees it can give.
-/

namespace Reckoner.Parser

/-- A level of binary operators. -/
inductive Level where
  | additive
  | multiplicative

namespace Level

variable (l : Level)

/-- Reading a chain of operations of this level. -/
def goal : Level → Goal
  | additive => .sum
  | multiplicative => .product

/-- Reading on behind the first part of a chain. -/
def tail : Level → Expr → Goal
  | additive => .sumTail
  | multiplicative => .productTail

/-- Reading one operand of a chain. -/
def operand : Level → Goal
  | additive => .product
  | multiplicative => .signed

/-- The operator of this level in a terminal. -/
def select : Level → Terminal → Option Operator
  | additive => additive?
  | multiplicative => multiplicative?

/-- The operators of this level. -/
def holds : Level → Operator → Bool
  | additive, o => o.isAdditive
  | multiplicative, o => o.isMultiplicative

@[simp] theorem select_finish : l.select .finish = none := by cases l <;> rfl

theorem select_operator (o : Operator) :
    l.select (.operator o) = if l.holds o then some o else none := by cases l <;> rfl

theorem select_eq_some {k : Terminal} {o : Operator} :
    l.select k = some o ↔ k = .operator o ∧ l.holds o = true := by
  cases k with
  | operator o' =>
    rw [select_operator]
    constructor
    · intro h
      split at h
      · obtain rfl := Option.some.inj h
        exact ⟨rfl, ‹_›⟩
      · cases h
    · rintro ⟨⟨⟩, h⟩
      rw [if_pos h]
  | _ => cases l <;> simp [select, additive?, multiplicative?]

end Level

/-! ### The rules of a level -/

theorem run_goal (l : Level) (p : Parser) :
    p.run l.goal = Outcome.andThen (p.run l.operand) fun left q => q.run (l.tail left) := by
  cases l
  · exact run_sum p
  · exact run_product p

theorem run_tail (l : Level) (left : Expr) (p : Parser) :
    p.run (l.tail left) =
      p.choose l.select
        (fun o q => Outcome.andThen (q.run l.operand) fun right r =>
          r.run (l.tail (.binary o left right)))
        (.ok left, p) := by
  cases l
  · exact run_sumTail left p
  · exact run_productTail left p

/-- **Induction over the rules**: a goal calls others behind a token that was accepted, behind
the operand of its level, or at the same place if they are of lower rank. -/
theorem run_induction {motive : Goal → Parser → Prop}
    (goal : ∀ (l : Level) p, motive l.operand p →
      (∀ left q, q.remaining ≤ p.remaining → motive (l.tail left) q) → motive l.goal p)
    (tail : ∀ (l : Level) left p, (∀ q, q.remaining < p.remaining → motive l.operand q) →
      (∀ left q, q.remaining < p.remaining → motive (l.tail left) q) → motive (l.tail left) p)
    (signed : ∀ p, (∀ q, q.remaining < p.remaining → motive .signed q) → motive .primary p →
      motive .signed p)
    (primary : ∀ p, (∀ q, q.remaining < p.remaining → motive .sum q) → motive .primary p)
    (g : Goal) (p : Parser) : motive g p := by
  generalize hn : p.remaining = n
  induction n using Nat.strongRecOn generalizing g p with
  | ind n ih =>
    subst hn
    have lower : ∀ g q, q.remaining < p.remaining → motive g q := fun g q hq => ih _ hq g q rfl
    -- at the same place the rank of the goal decides, and tails come first
    have htail : ∀ (l : Level) left q, q.remaining ≤ p.remaining → motive (l.tail left) q :=
      fun l left q hq =>
        tail l left q (fun r hr => lower _ r (Nat.lt_of_lt_of_le hr hq))
          fun _ r hr => lower _ r (Nat.lt_of_lt_of_le hr hq)
    have hprimary : motive .primary p := primary p (lower _)
    have hsigned : motive .signed p := signed p (lower _) hprimary
    have hproduct : motive .product p := goal .multiplicative p hsigned (htail .multiplicative)
    cases g with
    | primary => exact hprimary
    | signed => exact hsigned
    | product => exact hproduct
    | productTail left => exact htail .multiplicative left p (Nat.le_refl _)
    | sum => exact goal .additive p hproduct (htail .additive)
    | sumTail left => exact htail .additive left p (Nat.le_refl _)

/-- What an operand leaves is no more than there was. -/
theorem remaining_le_of_run {g : Goal} {p q : Parser} {r : Except Fault Expr}
    (h : p.run g = (r, q)) : q.remaining ≤ p.remaining := by
  have hle := remaining_run_le g p
  rwa [h] at hle

/-! ### What a reading leaves and gives -/

namespace Goal

/-- The terminals that a reading of a goal goes on with: sums with any operator, products with the
operators of their level. -/
def continues : Goal → Terminal → Bool
  | sum, .operator _ | sumTail _, .operator _ => true
  | product, .operator o | productTail _, .operator o => o.isMultiplicative
  | _, _ => false

/-- The trees that a reading of a goal can give, if they are canonical. -/
def admits : Goal → Expr → Bool
  | sum, _ | sumTail _, _ => true
  | product, e | productTail _, e => !e.isSum
  | signed, e => !e.isOperation
  | primary, .number _ | primary, .grouping _ => true
  | primary, _ => false

end Goal

namespace Level

variable (l : Level)

/-- A chain goes on with what its operands go on with, and with the operators of its level. -/
theorem continues_goal (k : Terminal) :
    l.goal.continues k = (l.operand.continues k || (l.select k).isSome) := by
  cases l <;> cases k <;> try rfl
  all_goals rename_i o; cases o <;> rfl

@[simp] theorem continues_tail (left : Expr) (k : Terminal) :
    (l.tail left).continues k = l.goal.continues k := by cases l <;> cases k <;> rfl

@[simp] theorem admits_tail (left e : Expr) : (l.tail left).admits e = l.goal.admits e := by
  cases l <;> rfl

/-- A single operand is a chain. -/
theorem admits_goal_of_operand {e : Expr} (h : l.operand.admits e = true) :
    l.goal.admits e = true := by
  cases l with
  | additive => rfl
  | multiplicative =>
    simp only [goal, operand, Goal.admits, Bool.not_eq_true'] at h ⊢
    exact Expr.isSum_of_isOperation h

/-- The operands of a canonical operation: a chain of its level, and a single operand. -/
theorem isCanonical_binary {o : Operator} (ho : l.holds o = true) (left right : Expr) :
    (Expr.binary o left right).isCanonical =
      (l.goal.admits left && l.operand.admits right &&
        left.isCanonical && right.isCanonical) := by
  cases l <;> cases o <;> first | rfl | cases ho

/-- An operation is a chain of its level. -/
theorem admits_goal_binary {o : Operator} (ho : l.holds o = true) (left right : Expr) :
    l.goal.admits (.binary o left right) = true := by
  cases l <;> cases o <;> first | rfl | cases ho

end Level

end Reckoner.Parser
