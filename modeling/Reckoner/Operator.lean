import Reckoner.Double.Arithmetic
import Reckoner.Text.CodePoint

/-!
# Operators

The four binary operators, and the two signs that stand before an operand. Only the additive
operators have a sign of the same symbol (`Operator.sign?`).
-/

namespace Reckoner

/-- A binary arithmetic operator. -/
inductive Operator where
  | addition
  | subtraction
  | multiplication
  | division
deriving DecidableEq

/-- A **sign** is an operator before its only operand. -/
inductive Sign where
  | plus
  | minus
deriving DecidableEq

namespace Sign

/-- The character that writes a sign. -/
def symbol : Sign → Char
  | plus => '+'
  | minus => '-'

/-- The name of a sign in the outline of a tree. -/
def name : Sign → String
  | plus => "PLUS"
  | minus => "MINUS"

/-- The value of an operand behind a sign. -/
def apply : Sign → Double → Double
  | plus, x => x
  | minus, x => -x

/-- The sign that a text writes. -/
def ofText? (t : Text) : Option Sign := [plus, minus].find? fun s => [.scalar s.symbol] = t

/-- A sign in the outline of a tree. -/
def outline (s : Sign) : Text :=
  "<PrefixOperator." ++ Text.ofString s.name ++ ": '" ++ Text.ofChars [s.symbol] ++ "'>"

end Sign

namespace Operator

/-- All operators. -/
def all : List Operator := [addition, subtraction, multiplication, division]

/-- The character that writes an operator. -/
def symbol : Operator → Char
  | addition => '+'
  | subtraction => '-'
  | multiplication => '*'
  | division => '/'

/-- The name of an operator in the outline of a tree. -/
def name : Operator → String
  | addition => "ADDITION"
  | subtraction => "SUBTRACTION"
  | multiplication => "MULTIPLICATION"
  | division => "DIVISION"

/-- The value of an operation. -/
def apply : Operator → Double → Double → Double
  | addition, x, y => x + y
  | subtraction, x, y => x - y
  | multiplication, x, y => x * y
  | division, x, y => x / y

/-- Additive operators are those that have a sign of the same symbol. -/
def isAdditive : Operator → Bool
  | addition | subtraction => true
  | multiplication | division => false

/-- Multiplicative operators bind more tightly than additive ones. -/
def isMultiplicative (o : Operator) : Bool := !o.isAdditive

/-- The sign with the symbol of an additive operator. -/
def sign? : Operator → Option Sign
  | addition => some .plus
  | subtraction => some .minus
  | multiplication | division => none

/-- The operator that a character writes. -/
def ofChar? (c : Char) : Option Operator := all.find? fun o => o.symbol = c

/-- The operator that a text writes. -/
def ofText? (t : Text) : Option Operator := all.find? fun o => [.scalar o.symbol] = t

/-- An operator in the outline of a tree. -/
def outline (o : Operator) : Text :=
  "<Operator." ++ Text.ofString o.name ++ ": '" ++ Text.ofChars [o.symbol] ++ "'>"

end Operator

end Reckoner
