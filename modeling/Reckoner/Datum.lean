import Reckoner.BigDecimal
import Reckoner.Expr.Basic

/-!
# Data

A datum is a value of any kind that can be offered where a number, a text, an operator or an
expression is wanted: what a JSON document holds, exact rationals, decimals, complex numbers,
operators, signs and expressions.

Messages show a datum by its outline (`Datum.outline`): texts are quoted, lists and dictionaries
are written out, and the other kinds name themselves.
-/

namespace Reckoner

/-- A **datum** is a value of any kind. -/
inductive Datum where
  | null
  | bool (b : Bool)
  | integer (n : Int)
  | double (x : Double)
  | text (t : Text)
  | list (items : List Datum)
  | dict (entries : List (Text × Datum))
  | rational (q : Rat)
  | decimal (d : BigDecimal)
  | complex (re im : Double)
  | operator (o : Operator)
  | sign (s : Sign)
  | expr (e : Expr)

instance : Inhabited Datum := ⟨.null⟩

/-- The text of a double in a complex number: a whole number has no point. -/
def Double.partText (x : Double) : Text :=
  let t := x.text
  if (Text.ofString ".0").isSuffixOf t then t.take (t.length - 2) else t

/-- A complex number without a real part is its imaginary part alone; otherwise both parts stand
in parentheses, the second with its sign. -/
def complexText (re im : Double) : Text :=
  if re = .zero false then im.partText ++ "j"
  else
    let sign : Text := if im.partText.head? = some (.scalar '-') then [] else "+"
    "(" ++ re.partText ++ sign ++ im.partText ++ "j)"

namespace Datum

mutual

/-- A datum as a message shows it. -/
def outline : Datum → Text
  | null => "None"
  | bool b => if b then "True" else "False"
  | integer n => Text.ofInt n
  | double x => x.text
  | text t => t.quoted
  | list items => "[" ++ Text.joined ", " (outlines items) ++ "]"
  | dict entries => "\x7b" ++ Text.joined ", " (entryOutlines entries) ++ "\x7d"
  | rational q => "Fraction(" ++ Text.ofInt q.num ++ ", " ++ Text.ofNat q.den ++ ")"
  | decimal d => "Decimal('" ++ d.text ++ "')"
  | complex re im => complexText re im
  | operator o => o.outline
  | sign s => s.outline
  | expr e => e.outline

/-- The outlines of the items of a list. -/
def outlines : List Datum → List Text
  | [] => []
  | d :: ds => d.outline :: outlines ds

/-- The outlines of the entries of a dictionary. -/
def entryOutlines : List (Text × Datum) → List Text
  | [] => []
  | (key, d) :: entries => (key.quoted ++ ": " ++ d.outline) :: entryOutlines entries

end

/-- A datum as running text: a text is itself and an operator is its symbol. -/
def inline : Datum → Text
  | text t => t
  | operator o => Text.ofChars [o.symbol]
  | sign s => Text.ofChars [s.symbol]
  | decimal d => d.text
  | rational q =>
    if q.den = 1 then Text.ofInt q.num else Text.ofInt q.num ++ "/" ++ Text.ofNat q.den
  | expr e => e.description
  | d => d.outline

/-- The name of the kind of a datum. -/
def kindName : Datum → String
  | null => "NoneType"
  | bool _ => "bool"
  | integer _ => "int"
  | double _ => "float"
  | text _ => "str"
  | list _ => "list"
  | dict _ => "dict"
  | rational _ => "Fraction"
  | decimal _ => "Decimal"
  | complex .. => "complex"
  | operator _ => "Operator"
  | sign _ => "PrefixOperator"
  | expr e => e.kindName

end Datum

end Reckoner
