import Reckoner.Expr.Basic

/-!
# Equality of expressions

Two trees are equal when they have the same shape, the same operators and equal numbers. Numbers
are compared by value, so the two zeros are equal, and a NaN equals only itself. A parsed
expression or a pair of parentheses never equals its content.

`Expr.distinct` keeps the first tree of each class of equal ones.
-/

namespace Reckoner.Expr

/-- Structural equality. -/
def same : Expr → Expr → Bool
  | number x, number y => x.same y
  | signed s e, signed t f => s = t && e.same f
  | binary o l r, binary p l' r' => o = p && l.same l' && r.same r'
  | grouping e, grouping f => e.same f
  | parsed e, parsed f => e.same f
  | _, _ => false

/-- The first trees of the classes of equal trees, in order. -/
def distinct (es : List Expr) : List Expr :=
  es.foldl (fun seen e => if seen.any e.same then seen else seen ++ [e]) []

end Reckoner.Expr
