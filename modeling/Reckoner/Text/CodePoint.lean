/-!
# Text

A text is a list of code points. A code point is a Unicode scalar value or a surrogate that
stands alone: escapes in a JSON document can produce the latter, and messages show it, so
core's `Char` is too small a type for the input of the lexer.

Positions in a text count code points.
-/

namespace Reckoner

/-- A **code point** is a scalar value or a surrogate that belongs to no pair. -/
inductive CodePoint where
  | scalar (c : Char)
  /-- The surrogate `0xD800 + offset`. -/
  | surrogate (offset : Fin 2048)
deriving DecidableEq

/-- A text is a list of code points. -/
abbrev Text := List CodePoint

namespace CodePoint

/-- The number of a code point, below `0x110000`. -/
def value : CodePoint → Nat
  | scalar c => c.toNat
  | surrogate offset => 0xD800 + offset.val

/-- The code point with the number `n`; a number past the last code point gives NUL. -/
def ofNat (n : Nat) : CodePoint :=
  if h : 0xD800 ≤ n ∧ n < 0xD800 + 2048 then surrogate ⟨n - 0xD800, by omega⟩
  else scalar (Char.ofNat n)

/-- The ASCII digits are the only digits; digits of other scripts are not. -/
def isDigit : CodePoint → Bool
  | scalar c => c.isDigit
  | surrogate _ => false

end CodePoint

namespace Text

/-- The text of a list of characters. -/
def ofChars (cs : List Char) : Text := cs.map .scalar

/-- The text of a string. -/
def ofString (s : String) : Text := ofChars s.toList

instance : Coe String Text := ⟨ofString⟩

/-- A natural number in decimal. -/
def ofNat (n : Nat) : Text := ofChars (Nat.toDigits 10 n)

/-- An integer in decimal, with a hyphen before a negative one. -/
def ofInt : Int → Text
  | .ofNat n => ofNat n
  | .negSucc n => .scalar '-' :: ofNat (n + 1)

/-- The texts `ts` with `separator` between each two. -/
def joined (separator : Text) (ts : List Text) : Text := separator.intercalate ts

/-- Comparison of texts by the numbers of their code points; a proper beginning comes first. -/
def le : Text → Text → Bool
  | [], _ => true
  | _ :: _, [] => false
  | a :: s, b :: t => if a.value = b.value then le s t else a.value < b.value

@[simp] theorem ofChars_nil : ofChars [] = [] := rfl

@[simp] theorem ofChars_cons (c : Char) (cs : List Char) :
    ofChars (c :: cs) = .scalar c :: ofChars cs := rfl

@[simp] theorem ofChars_append (cs ds : List Char) :
    ofChars (cs ++ ds) = ofChars cs ++ ofChars ds := by
  simp [ofChars]

@[simp] theorem length_ofChars (cs : List Char) : (ofChars cs).length = cs.length := by
  simp [ofChars]

end Text

end Reckoner
