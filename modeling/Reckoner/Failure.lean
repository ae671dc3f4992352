import Reckoner.Json.Error
import Reckoner.Json.Writer
import Reckoner.ParseError

/-!
# Failures

Everything that an operation of the library can fail with, by its cause. `Failure.message` is the
wording of each.
-/

namespace Reckoner

/-- A set of names that a text is looked up in. -/
inductive Vocabulary where
  | operator
  | sign
  | terminalKind
  | lexicalErrorKind
  | parseErrorKind
deriving DecidableEq

/-- What a message calls a vocabulary. -/
def Vocabulary.name : Vocabulary → String
  | operator => "Operator"
  | sign => "PrefixOperator"
  | terminalKind => "TokenType"
  | lexicalErrorKind => "LexicalErrorKind"
  | parseErrorKind => "ParseErrorKind"

/-- Why an operation **failed**. -/
inductive Failure where
  /-- Parsing ended with a fault. -/
  | fault (f : Fault)
  /-- A datum that is no real number was offered as a number. -/
  | notNumber (d : Datum)
  /-- A text is no spelling of a double. -/
  | misspelledDouble (t : Text)
  /-- A text is no spelling of an integer. -/
  | misspelledInteger (t : Text)
  /-- There is no decimal for a text. -/
  | decimal (e : BigDecimal.ReadError)
  /-- A fraction with this numerator has the denominator zero. -/
  | zeroDenominator (numerator : Int)
  | notSign (d : Datum)
  | notOperator (d : Datum)
  | notExpression (d : Datum)
  /-- A datum is neither a number nor a text. -/
  | undecodable (d : Datum)
  /-- An integer is past the largest double. -/
  | integerOverflow
  /-- A rational is past the largest double. -/
  | rationalOverflow
  /-- A datum is none of the names in a vocabulary. -/
  | unknown (vocabulary : Vocabulary) (d : Datum)
  /-- A node of this kind has no such attribute. -/
  | noAttribute (kind : String) (name : Text)
  /-- A node of this kind was to be changed. -/
  | immutable (kind : String)
  /-- The abstract node has no value, no text and no structure. -/
  | abstract
  | document (e : Json.Error)
  | write (e : Json.WriteError)

namespace Failure

/-- The message of a failure. A misspelled integer is shown up to 200 code points. -/
def message : Failure → Text
  | fault (.parse e) => e.message
  | fault (.assertion a) => a.message
  | notNumber d => "Not a number: " ++ d.outline
  | misspelledDouble t => "could not convert string to float: " ++ t.quoted
  | misspelledInteger t => "invalid literal for int() with base 10: " ++ t.quoted.take 200
  | decimal e => e.message
  | zeroDenominator n => "Fraction(" ++ Text.ofInt n ++ ", 0)"
  | notSign d => "Not a prefix operator: " ++ d.outline
  | notOperator d => "Not a binary operator: " ++ d.outline
  | notExpression d => "Not an expression: " ++ d.outline
  | undecodable d => "Cannot decode " ++ d.outline ++ " as an expression"
  | integerOverflow => "int too large to convert to float"
  | rationalOverflow => "integer division result too large for a float"
  | unknown vocabulary d =>
    d.outline ++ " is not a valid " ++ Text.ofString vocabulary.name
  | noAttribute kind name =>
    "'" ++ Text.ofString kind ++ "' object has no attribute " ++ ("'" ++ name ++ "'")
  | immutable kind => Text.ofString kind ++ " is immutable"
  | abstract => []
  | document e => e.text
  | write e => e.message

/-- Look a datum up in a vocabulary. Only texts are names. -/
def lookUp {α : Type} (vocabulary : Vocabulary) (find? : Text → Option α) (d : Datum) :
    Except Failure α :=
  let found :=
    match d with
    | .text t => find? t
    | _ => none
  match found with
  | some a => .ok a
  | none => .error (.unknown vocabulary d)

end Failure

end Reckoner
