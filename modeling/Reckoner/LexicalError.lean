import Reckoner.Text.Quoted

/-!
# Lexical errors

What is wrong with input that cannot be cut into tokens: a character that begins no token, or a
number that breaks off where it needs a digit.
-/

namespace Reckoner

/-- What is wrong. -/
inductive LexicalError.Kind where
  | invalidCharacter
  | noDigitAfterPoint
  | noDigitAfterE
deriving DecidableEq

/-- A **lexical error** says what is wrong and at which index. An invalid character is named. -/
structure LexicalError where
  kind : LexicalError.Kind
  position : Int
  character : Option Text
deriving DecidableEq

namespace LexicalError

/-- All kinds of lexical errors. -/
def Kind.all : List Kind := [.invalidCharacter, .noDigitAfterPoint, .noDigitAfterE]

/-- The name of a kind. -/
def Kind.name : Kind → String
  | invalidCharacter => "invalid-character"
  | noDigitAfterPoint => "no-digit-after-decimal-point"
  | noDigitAfterE => "no-digit-after-e"

/-- The kind with this name. -/
def Kind.ofText? (t : Text) : Option Kind := all.find? fun k => Text.ofString k.name = t

/-- The message of a lexical error. -/
def message (e : LexicalError) : Text :=
  match e.kind with
  | .invalidCharacter =>
    "Use of invalid character " ++ (e.character.elim ("None" : Text) Text.quoted) ++
      " at index " ++ Text.ofInt e.position ++ "."
  | .noDigitAfterPoint =>
    "Expected a digit after the decimal point at index " ++ Text.ofInt e.position ++ "."
  | .noDigitAfterE =>
    "Expected a digit in the floating point exponent at index " ++ Text.ofInt e.position ++ "."

end LexicalError

end Reckoner
