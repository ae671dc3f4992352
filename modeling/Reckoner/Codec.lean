import Reckoner.Expr.Parse
import Reckoner.Json.Document

/-!
# Expressions in JSON documents

A parsed expression that is a single number is written as a JSON number, and any other as a string
that holds its description. On the way in a number is tried first, then a string is parsed. An
exact number past the range of doubles is read as an infinity, like a literal with an exponent.

All functions here take or give the root of a parsed expression.
-/

namespace Reckoner

/-- The datum that stands for a parsed expression with this root. -/
def Expr.encode (root : Expr) : Datum :=
  if root.isNumber then .double root.value else .text root.description

/-- Whether a real number is negative. -/
def Datum.isNegative : Datum → Bool
  | integer n => n < 0
  | rational q => q.num < 0
  | _ => false

/-- The root of the expression that a datum stands for. -/
def Expr.decode : Datum → Except Failure Expr
  | .text t =>
    match parse t with
    | .ok e => .ok e
    | .error f => .error (.fault f)
  | d =>
    match ofDatum d with
    | .error .integerOverflow | .error .rationalOverflow =>
      .ok (.number (.infinite d.isNegative))
    | .error _ => .error (.undecodable d)
    | .ok e => .ok e

mutual

/-- A datum with every parsed expression in it replaced by what stands for it. -/
def Datum.encodeParsed : Datum → Datum
  | .expr (.parsed root) => root.encode
  | .list items => .list (encodeItems items)
  | .dict entries => .dict (encodeEntries entries)
  | d => d

/-- The items of a list, encoded. -/
def Datum.encodeItems : List Datum → List Datum
  | [] => []
  | d :: ds => d.encodeParsed :: encodeItems ds

/-- The entries of a dictionary, encoded. -/
def Datum.encodeEntries : List (Text × Datum) → List (Text × Datum)
  | [] => []
  | (key, d) :: entries => (key, d.encodeParsed) :: encodeEntries entries

end

/-- Write a datum, which may be or contain parsed expressions, as a JSON document. -/
def Json.dumps (style : Json.Style) (d : Datum) : Except Failure Text :=
  match style.write 0 d.encodeParsed with
  | .ok t => .ok t
  | .error e => .error (.write e)

/-- Read a JSON document that stands for an expression, and give its root. -/
def Json.loads (hooks : Json.Hooks) (document : Text) : Except Failure Expr :=
  match Json.parse hooks document with
  | .ok d => Expr.decode d
  | .error e => .error (.document e)

end Reckoner
