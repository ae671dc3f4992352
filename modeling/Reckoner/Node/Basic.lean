import Reckoner.Failure

/-!
# Nodes

A node is an expression tree as its users handle it: something that other nodes can be built on and
that can be looked at but not changed. Nothing is asked of the parts of a node when it is built, so
at its leaves there may be things without a value or a text: the abstract node, which is the common
base of all kinds of nodes, and data. Looking at a node fails where such a part is met first.

* `Node.ofExpr` takes an expression tree for a node. Looking at it never fails, and shows what the
  tree is (`Node.value_ofExpr`, `Node.description_ofExpr`, `Node.outline_ofExpr`).
* `Node.get` looks an attribute up by its name.
-/

namespace Reckoner

/-- A **node**: a tree with anything at its leaves. -/
inductive Node where
  | number (value : Double)
  | signed (sign : Sign) (operand : Node)
  | binary (operator : Operator) (left right : Node)
  | grouping (content : Node)
  /-- A node marked as a parsed expression. -/
  | parsed (root : Node)
  /-- The base of all kinds of nodes; the tag tells one abstract node from another. -/
  | abstract (tag : Nat)
  /-- A datum, which is no node at all. -/
  | datum (d : Datum)

namespace Node

/-- An expression tree as a node. -/
def ofExpr : Expr → Node
  | .number x => number x
  | .signed s e => signed s (ofExpr e)
  | .binary o l r => binary o (ofExpr l) (ofExpr r)
  | .grouping e => grouping (ofExpr e)
  | .parsed e => parsed (ofExpr e)

/-- The name of the kind of a node. -/
def kindName : Node → String
  | number _ => "Number"
  | signed .. => "PrefixOperation"
  | binary .. => "BinaryOperation"
  | grouping _ => "Grouping"
  | parsed _ => "ParsedExpression"
  | abstract _ => "Expression"
  | datum d => d.kindName

/-- Whether a node is itself a number. -/
def isNumber : Node → Bool
  | number _ => true
  | _ => false

/-! ### Looking -/

/-- The value of a node, bottom up and from left to right. -/
def value : Node → Except Failure Double
  | number x => .ok x
  | signed s n => n.value.map s.apply
  | binary o l r => do
    let x ← l.value
    let y ← r.value
    .ok (o.apply x y)
  | grouping n => n.value
  | parsed n => n.value
  | abstract _ => .error .abstract
  | datum d => .error (.noAttribute d.kindName "value")

/-- The canonical text of a node. -/
def description : Node → Except Failure Text
  | number x => .ok x.text
  | signed s n => n.description.map (.scalar s.symbol :: ·)
  | binary o l r => do
    let s ← l.description
    let t ← r.description
    .ok (s ++ Text.ofChars [' ', o.symbol, ' '] ++ t)
  | grouping n => n.description.map fun t => .scalar '(' :: (t ++ [.scalar ')'])
  | parsed n => n.description
  | abstract _ => .error .abstract
  | datum d => .error (.noAttribute d.kindName "description")

/-- The structure of a node. A parsed expression shows its description instead of its parts. -/
def outline : Node → Except Failure Text
  | number x => .ok ("Number(" ++ x.text ++ ")")
  | signed s n => n.outline.map fun t => "PrefixOperation(" ++ s.outline ++ ", " ++ t ++ ")"
  | binary o l r => do
    let s ← l.outline
    let t ← r.outline
    .ok ("BinaryOperation(" ++ o.outline ++ ", " ++ s ++ ", " ++ t ++ ")")
  | grouping n => n.outline.map fun t => "Grouping(" ++ t ++ ")"
  | parsed n => n.description.map fun t => "ParsedExpression(" ++ t.quoted ++ ")"
  | abstract _ => .error .abstract
  | datum d => .ok d.outline

/-- A node as running text. -/
def inline : Node → Except Failure Text
  | datum d => .ok d.inline
  | n => n.description

@[simp] theorem kindName_ofExpr (e : Expr) : (ofExpr e).kindName = e.kindName := by
  cases e <;> rfl

@[simp] theorem isNumber_ofExpr (e : Expr) : (ofExpr e).isNumber = e.isNumber := by
  cases e <;> rfl

/-- A tree always has its value. -/
@[simp] theorem value_ofExpr (e : Expr) : (ofExpr e).value = .ok e.value := by
  induction e with
  | number => rfl
  | signed s e ih => rw [ofExpr, value, ih]; rfl
  | binary o l r ihl ihr => rw [ofExpr, value, ihl, ihr]; rfl
  | grouping e ih => rw [ofExpr, value, ih]; rfl
  | parsed e ih => rw [ofExpr, value, ih]; rfl

/-- A tree always has its canonical text. -/
@[simp] theorem description_ofExpr (e : Expr) : (ofExpr e).description = .ok e.description := by
  induction e with
  | number => rfl
  | signed s e ih => rw [ofExpr, description, ih]; rfl
  | binary o l r ihl ihr => rw [ofExpr, description, ihl, ihr]; rfl
  | grouping e ih => rw [ofExpr, description, ih]; rfl
  | parsed e ih => rw [ofExpr, description, ih]; rfl

/-- A tree always shows its structure. -/
@[simp] theorem outline_ofExpr (e : Expr) : (ofExpr e).outline = .ok e.outline := by
  induction e with
  | number => rfl
  | signed s e ih => rw [ofExpr, outline, ih]; rfl
  | binary o l r ihl ihr => rw [ofExpr, outline, ihl, ihr]; rfl
  | grouping e ih => rw [ofExpr, outline, ih]; rfl
  | parsed e => rw [ofExpr, outline, description_ofExpr]; rfl

/-! ### Attributes -/

/-- The parts that a node is built from, by their names. -/
def parts : Node → List (String × Node)
  | number x => [("value", datum (.double x))]
  | signed s n => [("operator", datum (.sign s)), ("operand", n)]
  | binary o l r => [("operator", datum (.operator o)), ("left", l), ("right", r)]
  | grouping n => [("expression", n)]
  | parsed n => [("expression", n)]
  | abstract _ | datum _ => []

/-- What can be told about a node as a whole, by its name. A node may fail to give it. -/
def views : Node → List (String × Except Failure Node)
  | datum _ => []
  | n =>
    [("value", n.value.map fun x => datum (.double x)),
      ("description", n.description.map fun t => datum (.text t))] ++
        match n with
        | parsed root => [("is_number", .ok (datum (.bool root.isNumber)))]
        | _ => []

/-- The attributes of a node by their names. A part is also found under its inner name, which
begins with a low line. -/
def attributes (n : Node) : List (String × Except Failure Node) :=
  n.views ++ n.parts.map (fun (name, part) => (name, .ok part)) ++
    n.parts.map fun (name, part) => ("_" ++ name, .ok part)

/-- The attribute of a node with this name. -/
def get (n : Node) (name : Text) : Except Failure Node :=
  match n.attributes.find? fun a => Text.ofString a.1 = name with
  | some (_, a) => a
  | none => .error (.noAttribute n.kindName name)

/-- No attribute of a node can be assigned or deleted. -/
def change (n : Node) (name : Text) : Failure :=
  match n with
  | datum d => .noAttribute d.kindName name
  | n => .immutable n.kindName

/-! ### Building -/

/-- Put a sign before a node. -/
def putSign (sign : Datum) (n : Node) : Except Failure Node :=
  match sign with
  | .sign s => .ok (signed s n)
  | d => .error (.notSign d)

/-- Join two nodes by an operator. -/
def join (operator : Datum) (left right : Node) : Except Failure Node :=
  match operator with
  | .operator o => .ok (binary o left right)
  | d => .error (.notOperator d)

/-- Mark a node as a parsed expression. This is the only building that looks at what it is given:
a datum cannot be marked. -/
def markParsed : Node → Except Failure Node
  | datum d => .error (.notExpression d)
  | n => .ok (parsed n)

end Node

end Reckoner
