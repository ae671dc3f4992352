import Reckoner.Token.Basic

/-!
# Parse errors

What is wrong with input that gives no expression, and the token at which this shows. A parse
error of the kind `lexicalError` passes on the lexical error of its token, and no other kind has
one. A parser that would make any other combination has failed an assertion instead: `Fault` has
both cases.
-/

namespace Reckoner

/-- What is wrong. -/
inductive ParseError.Kind where
  | lexicalError
  | expectedExpression
  | expectedRightParen
  | expectedEnd
deriving DecidableEq

/-- A **parse error**: what is wrong, at which token, and the lexical error behind it. -/
structure ParseError where
  kind : ParseError.Kind
  token : Token
  lexical : Option LexicalError
deriving DecidableEq

namespace ParseError

namespace Kind

/-- All kinds of parse errors. -/
def all : List Kind := [lexicalError, expectedExpression, expectedRightParen, expectedEnd]

/-- The name of a kind. -/
def name : Kind → String
  | lexicalError => "lexical-error"
  | expectedExpression => "expected-expression"
  | expectedRightParen => "expected-right-paren"
  | expectedEnd => "expected-expression-end"

/-- The kind with this name. -/
def ofText? (t : Text) : Option Kind := all.find? fun k => Text.ofString k.name = t

/-- A lexical error goes with the kind `lexicalError`, and with no other. -/
def fits (k : Kind) (lexical : Option LexicalError) : Bool :=
  decide (k = lexicalError) == lexical.isSome

/-- What the parser expected; nothing, if it did not get as far as to expect something. -/
def expected : Kind → Text
  | lexicalError => []
  | expectedExpression => "an expression"
  | expectedRightParen => "a right parenthesis"
  | expectedEnd => "the end of the expression"

end Kind

/-- A **report** of a parse error, with a report of its token. -/
structure Report where
  kind : Kind
  token : Token.Report
  lexical : Option LexicalError

/-- The report of a parse error. -/
def report (e : ParseError) : Report := ⟨e.kind, e.token.report, e.lexical⟩

/-- The message of a report: that of the lexical error, or what was expected and what was there. -/
def Report.message (r : Report) : Text :=
  match r.lexical with
  | some e => e.message
  | none =>
    "Expected " ++ r.kind.expected ++ " at index " ++ Text.ofInt r.token.position ++
      ", but got " ++ r.token.description ++ " instead."

/-- The message of a parse error. -/
def message (e : ParseError) : Text := e.report.message

end ParseError

/-! ### Faults -/

/-- An **assertion** that a caller or the parser itself can violate. -/
inductive Assertion where
  | advancedPastEnd
  | noSign (o : Operator)
  | misfitLexicalError
deriving DecidableEq

/-- The message of a failed assertion. -/
def Assertion.message : Assertion → Text
  | advancedPastEnd => "Advanced past the end of the expression"
  | noSign o => Text.ofChars [o.symbol] ++ " has no prefix form"
  | misfitLexicalError => []

/-- A **fault** ends a step of the parser: bad input, or a failed assertion. -/
inductive Fault where
  | parse (e : ParseError)
  | assertion (a : Assertion)
deriving DecidableEq

namespace Fault

/-- The fault of giving up at a token. -/
def raise (kind : ParseError.Kind) (token : Token) (lexical : Option LexicalError) : Fault :=
  if kind.fits lexical then parse ⟨kind, token, lexical⟩ else assertion .misfitLexicalError

/-- The fault of finding something else than what was expected. -/
def unexpected (kind : ParseError.Kind) (token : Token) : Fault := raise kind token none

end Fault

/-- The sign of an additive operator; it is asserted that there is one. -/
def Operator.asSign (o : Operator) : Except Fault Sign :=
  match o.sign? with
  | some s => .ok s
  | none => .error (.assertion (.noSign o))

end Reckoner
