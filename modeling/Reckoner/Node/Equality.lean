import Reckoner.Expr.Equality
import Reckoner.Node.Basic

/-!
# Equality of nodes

Nodes are equal as trees are: the same shape, the same operators, and equal leaves. An abstract
node has nothing that could be compared. As a part of other nodes it equals itself, but comparing
it with another abstract node fails; on its own it cannot even be compared with itself. Parts are
compared from left to right, and none behind the first difference.

On expression trees this is the equality of trees (`Node.same_ofExpr`).
-/

namespace Reckoner.Node

/-- Equality of two parts of nodes. -/
def alike : Node → Node → Except Failure Bool
  | number x, number y => .ok (x.same y)
  | signed s n, signed t m => if s = t then n.alike m else .ok false
  | binary o l r, binary p l' r' =>
    if o = p then do
      let equal ← l.alike l'
      if equal then r.alike r' else .ok false
    else .ok false
  | grouping n, grouping m => n.alike m
  | parsed n, parsed m => n.alike m
  | abstract i, abstract j => if i = j then .ok true else .error .abstract
  | datum d, datum d' => .ok (d.outline = d'.outline)
  | _, _ => .ok false

/-- Equality of two nodes. -/
def same : Node → Node → Except Failure Bool
  | abstract _, abstract _ => .error .abstract
  | n, m => n.alike m

/-- Trees are alike as parts if they are equal. -/
@[simp] theorem alike_ofExpr (e f : Expr) : (ofExpr e).alike (ofExpr f) = .ok (e.same f) := by
  induction e generalizing f with
  | number x => cases f <;> rfl
  | signed s e ih =>
    cases f with
    | signed t f => by_cases h : s = t <;> simp [ofExpr, alike, Expr.same, h, ih]
    | _ => rfl
  | binary o l r ihl ihr =>
    cases f with
    | binary p l' r' =>
      by_cases h : o = p
      · cases hl : l.same l' <;>
          simp [ofExpr, alike, Expr.same, h, ihl, ihr, hl, bind, Except.bind]
      · simp [ofExpr, alike, Expr.same, h]
    | _ => rfl
  | grouping e ih =>
    cases f with
    | grouping f => exact ih f
    | _ => rfl
  | parsed e ih =>
    cases f with
    | parsed f => exact ih f
    | _ => rfl

/-- Trees are equal as nodes if they are equal. -/
@[simp] theorem same_ofExpr (e f : Expr) : (ofExpr e).same (ofExpr f) = .ok (e.same f) := by
  rw [← alike_ofExpr]
  cases e <;> rfl

/-! ### Sets of nodes -/

/-- Whether a node is abstract or has an abstract part. -/
def hasAbstract : Node → Bool
  | signed _ n => n.hasAbstract
  | binary _ l r => l.hasAbstract || r.hasAbstract
  | grouping n => n.hasAbstract
  | parsed n => n.hasAbstract
  | abstract _ => true
  | number _ | datum _ => false

/-- A list of different nodes with one more node, unless it is there. -/
def insertDistinct (seen : List Node) (n : Node) : Except Failure (List Node) := do
  let known ← seen.anyM fun m => n.same m
  if known then .ok seen else .ok (seen ++ [n])

/-- How many different nodes there are in a list. Nodes with abstract parts cannot be counted. -/
def countDistinct (nodes : List Node) : Except Failure Nat :=
  if nodes.any hasAbstract then .error .abstract
  else (nodes.foldlM insertDistinct []).map List.length

end Reckoner.Node
