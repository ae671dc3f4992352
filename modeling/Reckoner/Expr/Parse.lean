import Reckoner.Failure
import Reckoner.Parser.Rules

/-!
# Expressions from text and from numbers

`Expr.parse` reads a text that is exactly one expression. `Expr.ofDatum` takes a real number
without any parsing: an integer or a rational becomes the nearest double, and one past the largest
double is refused. Both give the root of a tree; a caller that wants the tree marked as parsed
puts `Expr.parsed` around it.
-/

namespace Reckoner

/-- The root of the expression that a text is. -/
def Expr.parse (t : Text) : Except Fault Expr :=
  match Parser.ofText t with
  | .ok p => p.expression.1
  | .error f => .error f

/-- The double nearest to a real number. -/
def Datum.toDouble : Datum → Except Failure Double
  | integer n =>
    let x := Double.ofRational n 1
    if x.isInfinite then .error .integerOverflow else .ok x
  | rational q =>
    let x := Double.ofRational q.num q.den
    if x.isInfinite then .error .rationalOverflow else .ok x
  | double x => .ok x
  | d => .error (.notNumber d)

/-- The number that a datum is. -/
def Expr.ofDatum (d : Datum) : Except Failure Expr := d.toDouble.map .number

end Reckoner
