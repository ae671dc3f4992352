import Reckoner.BigDecimal

/-!
# Errors in JSON documents

A document cannot be read if it breaks the grammar, or if a literal in it is to become a decimal
and cannot. While the document is read, the place of an error is known by how much of the document
is left there (`Json.Problem`). Once the reading has failed, the place becomes a line, a column and
an index of the document (`Json.Error`). Only a line feed ends a line.
-/

namespace Reckoner.Json

/-- What is wrong while a document is read. -/
inductive Problem where
  /-- The grammar is broken where `left` code points of the document are left. -/
  | grammar (message : String) (left : Nat)
  | decimal (e : BigDecimal.ReadError)
deriving DecidableEq

/-- A place in a document. Lines and columns count from one, the index from zero. -/
structure Place where
  line : Nat
  column : Nat
  index : Nat
deriving DecidableEq

/-- A **JSON error**: what is wrong with a document, and where its grammar is broken. -/
inductive Error where
  | grammar (message : String) (place : Place)
  | decimal (e : BigDecimal.ReadError)
deriving DecidableEq

/-- The place of an index of a document. -/
def Place.ofIndex (document : Text) (index : Nat) : Place :=
  let before := document.take index
  let line := before.reverse.takeWhile fun c => c != .scalar '\n'
  ⟨before.count (.scalar '\n') + 1, line.length + 1, index⟩

/-- Locate a problem in its document. -/
def Problem.locate (document : Text) : Problem → Error
  | grammar message left => .grammar message (.ofIndex document (document.length - left))
  | decimal e => .decimal e

/-- The text of an error. -/
def Error.text : Error → Text
  | grammar message place =>
    Text.ofString message ++ ": line " ++ Text.ofNat place.line ++ " column " ++
      Text.ofNat place.column ++ " (char " ++ Text.ofNat place.index ++ ")"
  | decimal e => e.message

end Reckoner.Json
