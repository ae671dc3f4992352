import Reckoner.Double.Layout
import Reckoner.Operator
import Reckoner.Text.Quoted

/-!
# Expression trees

A tree is a number, an operand behind a sign, a binary operation, a pair of parentheses around a
tree, or a tree marked as a parsed expression, which behaves like its root. Parentheses are nodes
of their own, so that a tree can be rendered as it was written; they add nothing to its value.

* `Expr.value` evaluates a tree to a double.
* `Expr.description` renders it to canonical text. No parentheses are added: a tree is rendered
  as the parser would have read it only if its shape is one that the grammar gives.
* `Expr.outline` shows its structure.
-/

namespace Reckoner

/-- An **expression tree**. -/
inductive Expr where
  | number (value : Double)
  | signed (sign : Sign) (operand : Expr)
  | binary (operator : Operator) (left right : Expr)
  | grouping (content : Expr)
  /-- A tree marked as a parsed expression. -/
  | parsed (root : Expr)
deriving DecidableEq

namespace Expr

/-- The value of a tree, bottom up. -/
def value : Expr → Double
  | number x => x
  | signed s e => s.apply e.value
  | binary o l r => o.apply l.value r.value
  | grouping e => e.value
  | parsed e => e.value

/-- The canonical text of a tree. -/
def description : Expr → Text
  | number x => x.text
  | signed s e => .scalar s.symbol :: e.description
  | binary o l r =>
    l.description ++ Text.ofChars [' ', o.symbol, ' '] ++ r.description
  | grouping e => .scalar '(' :: (e.description ++ [.scalar ')'])
  | parsed e => e.description

/-- The name of the kind of a node. -/
def kindName : Expr → String
  | number _ => "Number"
  | signed .. => "PrefixOperation"
  | binary .. => "BinaryOperation"
  | grouping _ => "Grouping"
  | parsed _ => "ParsedExpression"

/-- The structure of a tree: kinds of nodes with their parts in parentheses. A parsed expression
shows its description instead of its parts. -/
def outline : Expr → Text
  | number x => "Number(" ++ x.text ++ ")"
  | signed s e => "PrefixOperation(" ++ s.outline ++ ", " ++ e.outline ++ ")"
  | binary o l r =>
    "BinaryOperation(" ++ o.outline ++ ", " ++ l.outline ++ ", " ++ r.outline ++ ")"
  | grouping e => "Grouping(" ++ e.outline ++ ")"
  | parsed e => "ParsedExpression(" ++ e.description.quoted ++ ")"

/-- Whether a node is itself a number. -/
def isNumber : Expr → Bool
  | number _ => true
  | _ => false

end Expr

end Reckoner
