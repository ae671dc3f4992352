import Reckoner.Datum
import Reckoner.LexicalError

/-!
# Tokens

A token is a terminal symbol of the grammar at a position of the input. Input that cannot be cut
into symbols of the grammar still gives tokens: an error is a terminal, too, and so is the end.

A report of a token (`Token.Report`) is what messages are made from. Its parts need not fit
together, so a report can also be made by hand, with any value and any position.
-/

namespace Reckoner

/-- A **terminal** is a symbol of the grammar, a lexical error, or the end of the input. -/
inductive Terminal where
  | leftParen
  | rightParen
  | operator (o : Operator)
  | number (x : Double)
  | error (e : LexicalError)
  | finish
deriving DecidableEq

/-- The kind of a terminal. -/
inductive Terminal.Kind where
  | leftParen
  | rightParen
  | operator
  | number
  | error
  | finish
deriving DecidableEq

/-- A **token** is a terminal and where it stands. -/
structure Token where
  position : Int
  terminal : Terminal
deriving DecidableEq

namespace Terminal

namespace Kind

/-- All kinds of terminals. -/
def all : List Kind := [leftParen, rightParen, operator, number, error, finish]

/-- The name of a kind. -/
def name : Kind → String
  | leftParen => "left-paren"
  | rightParen => "right-paren"
  | operator => "operator"
  | number => "number"
  | error => "error"
  | finish => "end"

/-- The kind with this name. -/
def ofText? (t : Text) : Option Kind := all.find? fun k => Text.ofString k.name = t

end Kind

/-- The kind of a terminal. -/
def kind : Terminal → Kind
  | leftParen => .leftParen
  | rightParen => .rightParen
  | operator _ => .operator
  | number _ => .number
  | error _ => .error
  | finish => .finish

/-- Whether this is the end of the input. -/
def isFinish : Terminal → Bool
  | finish => true
  | _ => false

/-- The lexical error of an error. -/
def error? : Terminal → Option LexicalError
  | error e => some e
  | _ => none

end Terminal

/-! ### Reports -/

/-- The value in a report: a lexical error or any datum. -/
inductive Token.Value where
  | datum (d : Datum)
  | error (e : LexicalError)

/-- A **report** of a token: a kind, a position and a value, which need not fit together. -/
structure Token.Report where
  kind : Terminal.Kind
  position : Int
  value : Token.Value

namespace Token

/-- The value that a terminal carries, if any. -/
def valueOf : Terminal → Value
  | .operator o => .datum (.operator o)
  | .number x => .datum (.double x)
  | .error e => .error e
  | _ => .datum .null

/-- The report of a token. -/
def report (t : Token) : Report := ⟨t.terminal.kind, t.position, valueOf t.terminal⟩

/-- A value as running text. -/
def Value.inline : Value → Text
  | datum d => d.inline
  | error e => e.message

/-- A value as a message shows it. -/
def Value.outline : Value → Text
  | datum d => d.outline
  | error e => e.message

/-- What a message calls a token. An operator is shown as running text, a number by its outline. -/
def Report.description (r : Report) : Text :=
  match r.kind with
  | .leftParen => "a left parenthesis"
  | .rightParen => "a right parenthesis"
  | .operator => "an operator '" ++ r.value.inline ++ "'"
  | .number => "a number (" ++ r.value.outline ++ ")"
  | .error => "an error"
  | .finish => "the end of the string"

/-- What a message calls a token. -/
def description (t : Token) : Text := t.report.description

end Token

end Reckoner
