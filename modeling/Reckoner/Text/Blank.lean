import Reckoner.Text.CodePoint

/-!
# Blank text

Two sets of code points count as white space here. Between the tokens of an expression only the
space and the tab do (`CodePoint.isBlank`). A line of input is skipped when all of it is white
space in the wide sense (`CodePoint.isSpace`): the Unicode property `White_Space`, and the four
information separators U+001C to U+001F.
-/

namespace Reckoner

namespace CodePoint

/-- The space and the tab separate tokens; no other code point does. -/
def isBlank : CodePoint → Bool
  | scalar c => c = ' ' || c = '\t'
  | surrogate _ => false

/-- White space in the wide sense: the property `White_Space` and the information separators. -/
def isSpace (c : CodePoint) : Bool :=
  let n := c.value
  (0x09 ≤ n && n ≤ 0x0D) || (0x1C ≤ n && n ≤ 0x20) || n = 0x85 || n = 0xA0 || n = 0x1680 ||
    (0x2000 ≤ n && n ≤ 0x200A) || n = 0x2028 || n = 0x2029 || n = 0x202F || n = 0x205F ||
    n = 0x3000

end CodePoint

namespace Text

/-- A text is blank when it holds nothing but white space in the wide sense. -/
def isBlank (t : Text) : Bool := t.all CodePoint.isSpace

/-- A line without the carriage returns and line feeds at its end. -/
def chomp (t : Text) : Text :=
  (t.reverse.dropWhile fun c => c = .scalar '\r' || c = .scalar '\n').reverse

/-- The lines of a text, without what ends them: a line feed, a carriage return, or the two
together. What follows the last line end is a line only if it is not empty. -/
def lines (t : Text) : List Text :=
  go [] t
where
  /-- The lines of a text, of whose first line `line` was seen, the last code point first. -/
  go (line : Text) : Text → List Text
    | [] => if line.isEmpty then [] else [line.reverse]
    | .scalar '\r' :: .scalar '\n' :: t => line.reverse :: go [] t
    | .scalar '\r' :: t => line.reverse :: go [] t
    | .scalar '\n' :: t => line.reverse :: go [] t
    | c :: t => go (c :: line) t

end Text

end Reckoner
