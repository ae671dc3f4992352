import Reckoner.Main
import Reckoner.Node.Equality
import Reckoner.Node.Summary
import Reckoner.Parser.Equations
import Reckoner.Proofs.Expr.Canonical
import Reckoner.Proofs.Parser.Levels
import Reckoner.Proofs.Parser.Soundness
import Reckoner.Proofs.Parser.Completeness
import Reckoner.Proofs.Parser.Recognizer
import Reckoner.Proofs.Double.Decimal
import Reckoner.Proofs.Expr.Sentence
import Reckoner.Proofs.Token.Literal
import Reckoner.Proofs.Double.Layout
import Reckoner.Proofs.Expr.Rendering
import Reckoner.Proofs.Expr.Lexing
import Reckoner.Proofs.Expr.RoundTrip
import Reckoner.Proofs.Expr.Grammar
import Reckoner.Proofs.Token.Tiling
import Reckoner.Proofs.Token.Extension
import Reckoner.Proofs.Expr.Continuation
import Reckoner.Proofs.Double.Integer
import Reckoner.Proofs.Json.Number
import Reckoner.Proofs.Codec.Number
import Reckoner.Proofs.Json.Double
import Reckoner.Proofs.Expr.Numbers
import Reckoner.Proofs.Codec.RoundTrip
import Reckoner.Proofs.Parser.Trace
import Reckoner.Proofs.Double.Spelling
import Reckoner.Proofs.Parser.Run
import Reckoner.Proofs.Parser.Safety
import Reckoner.Proofs.Parser.Phrase
import Reckoner.Proofs.Token.Locality
import Reckoner.Proofs.Expr.Locality
import Reckoner.Proofs.Double.Nearest
import Reckoner.Proofs.Double.Reading
import Reckoner.Proofs.Token.Munch
import Reckoner.Proofs.Token.Relocation
import Reckoner.Proofs.Expr.Splicing
import Reckoner.Proofs.Expr.Distinctness
import Reckoner.Proofs.Codec.Invariant
import Reckoner.Proofs.Double.Agreement
import Reckoner.Proofs.Expr.Equality
import Reckoner.Proofs.Expr.Interchange
import Reckoner.Proofs.Node.Built
import Reckoner.Proofs.Node.Classes
import Reckoner.Proofs.Double.Order
import Reckoner.Proofs.Codec.Exact
import Reckoner.Proofs.CommandLine.Entries
import Reckoner.Proofs.CommandLine.Rendering
import Reckoner.Proofs.CommandLine.Batch
import Reckoner.Proofs.Parser.Termination
import Reckoner.Proofs.Parser.Relocation
import Reckoner.Proofs.Expr.Relocation
import Reckoner.Proofs.Double.Shortest
import Reckoner.Proofs.Expr.Printing
