import Reckoner.Codec
import Reckoner.Node.Basic

/-!
# Nodes told to others

A node that is a parsed expression can be written as a JSON document, like the tree that it is, and
summed up in all that there is to tell about it.
-/

namespace Reckoner

/-- What is told about a parsed expression. -/
structure Summary where
  value : Double
  description : Text
  /-- The outline of the root. -/
  tree : Text
  isNumber : Bool
  /-- The outline of the expression itself. -/
  outline : Text
  /-- The expression as a JSON document. -/
  json : Text

namespace Node

/-- The node inside a pair of parentheses or a parsed expression. -/
def content : Node → Except Failure Node
  | grouping n => .ok n
  | parsed n => .ok n
  | n => .error (.noAttribute n.kindName "expression")

/-- The root of a parsed expression. -/
def root : Node → Except Failure Node
  | parsed n => .ok n
  | n => .error (.noAttribute n.kindName "is_number")

/-- The datum that stands for a parsed expression with this root. -/
def encodeRoot : Node → Except Failure Datum
  | number x => .ok (.double x)
  | n => n.description.map .text

/-- A node as a JSON document. -/
def json : Node → Except Failure Text
  | parsed n => do
    let d ← n.encodeRoot
    Json.dumps .standard d
  | datum d => Json.dumps .standard d
  | n => .error (.write (.unserializable n.kindName))

/-- All that is told about a parsed expression. -/
def summary (n : Node) : Except Failure Summary := do
  let value ← n.value
  let description ← n.description
  let content ← n.content
  let tree ← content.outline
  let root ← n.root
  let outline ← n.outline
  let json ← n.json
  .ok ⟨value, description, tree, root.isNumber, outline, json⟩

/-- What is told about the parsed expression with this root. -/
def summaryOf (root : Expr) : Except Failure Summary := summary (parsed (ofExpr root))

/-- The root of a tree is encoded like the tree. -/
@[simp] theorem encodeRoot_ofExpr (e : Expr) : (ofExpr e).encodeRoot = .ok e.encode := by
  have h := congrArg (Except.map Datum.text) (description_ofExpr e)
  cases e with
  | number x => rfl
  | _ => exact h

end Node

end Reckoner
