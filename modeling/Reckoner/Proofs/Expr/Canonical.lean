import Reckoner.Expr.Basic
import Reckoner.ParseError

/-!
# Canonical trees

The terminals of a tree, from left to right, are what a sentence for it consists of
(`Expr.terminals`). A tree adds no parentheses of its own, so different trees can have the same
terminals: of all of them the grammar gives one, and that one is *canonical*
(`Expr.isCanonical`). In a canonical tree signs bind most tightly, products more tightly than
sums, and operations of one level associate to the left.
-/

namespace Reckoner

/-- The operator with the symbol of a sign. -/
def Sign.operator : Sign → Operator
  | plus => .addition
  | minus => .subtraction

@[simp] theorem Sign.isAdditive_operator (s : Sign) : s.operator.isAdditive = true := by
  cases s <;> rfl

@[simp] theorem Sign.symbol_operator (s : Sign) : s.operator.symbol = s.symbol := by
  cases s <;> rfl

@[simp] theorem Sign.asSign_operator (s : Sign) : s.operator.asSign = .ok s := by
  cases s <;> rfl

/-- Additive operators are the operators of the signs. -/
theorem Operator.exists_sign {o : Operator} (h : o.isAdditive = true) :
    ∃ s : Sign, o = s.operator := by
  cases o with
  | addition => exact ⟨.plus, rfl⟩
  | subtraction => exact ⟨.minus, rfl⟩
  | _ => cases h

namespace Expr

/-- The terminals of a tree, from left to right. A sign is an operator to the lexer, and a mark of
a parsed expression is not written at all. -/
def terminals : Expr → List Terminal
  | number x => [.number x]
  | signed s e => .operator s.operator :: e.terminals
  | binary o l r => l.terminals ++ .operator o :: r.terminals
  | grouping e => .leftParen :: (e.terminals ++ [.rightParen])
  | parsed e => e.terminals

/-- Whether a node is a binary operation. -/
def isOperation : Expr → Bool
  | binary .. => true
  | _ => false

/-- Whether a node is a sum or a difference. -/
def isSum : Expr → Bool
  | binary o _ _ => o.isAdditive
  | _ => false

/-- A tree is **canonical** when no operand behind a sign is a binary operation, no left factor is
a sum, no right factor is a binary operation and no right summand is a sum. The grammar has no
node for a mark of a parsed expression. -/
def isCanonical : Expr → Bool
  | number _ => true
  | signed _ e => !e.isOperation && e.isCanonical
  | binary o l r =>
    (if o.isAdditive then !r.isSum else !l.isSum && !r.isOperation) &&
      l.isCanonical && r.isCanonical
  | grouping e => e.isCanonical
  | parsed _ => false

/-- A sum is a binary operation. -/
theorem isSum_of_isOperation {e : Expr} (h : e.isOperation = false) : e.isSum = false := by
  cases e <;> first | rfl | cases h

/-- No tree has a lexical error or the end of the input among its terminals. -/
theorem not_mem_terminals (e : Expr) {k : Terminal} (hk : k ∈ e.terminals) :
    k.error? = none ∧ k.isFinish = false := by
  induction e with
  | number x =>
    obtain rfl := List.mem_singleton.mp hk
    exact ⟨rfl, rfl⟩
  | signed s e ih =>
    rcases List.mem_cons.mp hk with rfl | hk
    · exact ⟨rfl, rfl⟩
    · exact ih hk
  | binary o l r ihl ihr =>
    rcases List.mem_append.mp hk with hk | hk
    · exact ihl hk
    · rcases List.mem_cons.mp hk with rfl | hk
      · exact ⟨rfl, rfl⟩
      · exact ihr hk
  | grouping e ih =>
    rcases List.mem_cons.mp hk with rfl | hk
    · exact ⟨rfl, rfl⟩
    · rcases List.mem_append.mp hk with hk | hk
      · exact ih hk
      · obtain rfl := List.mem_singleton.mp hk
        exact ⟨rfl, rfl⟩
  | parsed e ih => exact ih hk

end Expr

end Reckoner
