import Reckoner.Text.Printable

/-!
# Quoted text

How a message shows a text: between single quotes, or between double quotes when the text has a
single quote and no double one. A quote equal to the delimiter and a backslash are written after
a backslash, the tab, the line feed and the carriage return have escapes of their own, and any
other code point that is not printable is written as its number in hexadecimal digits.
-/

namespace Reckoner

/-- The number `n` in lower case hexadecimal, with at least `width` digits. -/
def hexadecimal (width n : Nat) : List Char :=
  let digits := Nat.toDigits 16 n
  List.replicate (width - digits.length) '0' ++ digits

namespace CodePoint

/-- The escape of a code point by its number: two, four or eight hexadecimal digits. -/
def escaped (c : CodePoint) : Text :=
  let n := c.value
  Text.ofChars <|
    if n < 0x100 then '\\' :: 'x' :: hexadecimal 2 n
    else if n < 0x10000 then '\\' :: 'u' :: hexadecimal 4 n
    else '\\' :: 'U' :: hexadecimal 8 n

/-- A code point as it is shown between two quotes `delimiter`. -/
def quoted (delimiter c : CodePoint) : Text :=
  if c = delimiter || c = .scalar '\\' then [.scalar '\\', c]
  else if c = .scalar '\t' then [.scalar '\\', .scalar 't']
  else if c = .scalar '\n' then [.scalar '\\', .scalar 'n']
  else if c = .scalar '\r' then [.scalar '\\', .scalar 'r']
  else if c.isPrintable then [c]
  else c.escaped

end CodePoint

namespace Text

/-- Single quotes delimit a text, unless it has a single quote and no double one. -/
def delimiter (t : Text) : CodePoint :=
  if t.contains (.scalar '\'') && !t.contains (.scalar '"') then .scalar '"' else .scalar '\''

/-- A text as a message shows it. -/
def quoted (t : Text) : Text :=
  t.delimiter :: t.flatMap (CodePoint.quoted t.delimiter) ++ [t.delimiter]

end Text

end Reckoner
