import Reckoner.Datum

/-!
# Writing JSON

A datum is written as a JSON document in a `Style`: on one line or indented, with the keys in
order of insertion or sorted, with or without escapes for what is not ASCII. Doubles are written
like everywhere else, except that the infinities and NaN have the words `Infinity`, `-Infinity` and
`NaN`, which a style can forbid.

Only what a document can hold is written: a `WriteError` names anything else. Of several errors
the one that stands first in the document is reported, so the order of the keys decides here too.
-/

namespace Reckoner.Json

/-- Why a datum cannot be written. -/
inductive WriteError where
  /-- No document can hold a value of this kind. -/
  | unserializable (kind : String)
  /-- A datum of this kind tells no indentation. -/
  | indentation (kind : String)
  /-- An infinity or a NaN, which the style forbids. An indented style shows it. -/
  | outOfRange (shown : Option Text)
deriving DecidableEq

/-- The message of a write error. -/
def WriteError.message : WriteError → Text
  | unserializable kind => "Object of type " ++ Text.ofString kind ++ " is not JSON serializable"
  | indentation kind =>
    "can't multiply sequence by non-int of type '" ++ Text.ofString kind ++ "'"
  | outOfRange none => "Out of range float values are not JSON compliant"
  | outOfRange (some shown) => "Out of range float values are not JSON compliant: " ++ shown

/-- A **style** of writing. -/
structure Style where
  /-- What one level of indentation is written with, if items stand on lines of their own. -/
  indent : Option Text
  itemSeparator : Text
  keySeparator : Text
  sortKeys : Bool
  asciiOnly : Bool
  allowNan : Bool

/-- The standard style: on one line, in order of insertion, with escapes. -/
def Style.standard : Style := ⟨none, ", ", ": ", false, true, true⟩

/-- The indentation that a datum tells for a document: a text, or a number of spaces. A document
that is a string has no lines to indent, so any datum will do for it. -/
def indentation (document : Datum) : Datum → Except WriteError (Option Text)
  | .null => .ok none
  | .text t => .ok (some t)
  | .integer n => .ok (some (List.replicate n.toNat (.scalar ' ')))
  | .bool b => .ok (some (List.replicate b.toNat (.scalar ' ')))
  | d =>
    match document with
    | .text _ => .ok none
    | _ => .error (.indentation d.kindName)

/-! ### Strings -/

/-- The escape of a number below `0x10000`. -/
def unitEscape (n : Nat) : Text := Text.ofChars ('\\' :: 'u' :: hexadecimal 4 n)

/-- The escape of a code point; one past `0xFFFF` takes a surrogate pair. -/
def escape (c : CodePoint) : Text :=
  let n := c.value
  if n < 0x10000 then unitEscape n
  else
    unitEscape (0xD800 + (n - 0x10000) / 0x400) ++ unitEscape (0xDC00 + (n - 0x10000) % 0x400)

/-- A code point within a string. -/
def stringCharacter (asciiOnly : Bool) (c : CodePoint) : Text :=
  match c with
  | .scalar '"' => Text.ofChars ['\\', '"']
  | .scalar '\\' => Text.ofChars ['\\', '\\']
  | .scalar '\n' => Text.ofChars ['\\', 'n']
  | .scalar '\r' => Text.ofChars ['\\', 'r']
  | .scalar '\t' => Text.ofChars ['\\', 't']
  | .scalar '\x0c' => Text.ofChars ['\\', 'f']
  | .scalar '\x08' => Text.ofChars ['\\', 'b']
  | c => if c.value < 0x20 || (asciiOnly && 0x7E < c.value) then escape c else [c]

/-- A string literal. -/
def stringLiteral (asciiOnly : Bool) (t : Text) : Text :=
  .scalar '"' :: (t.flatMap (stringCharacter asciiOnly) ++ [.scalar '"'])

/-! ### Numbers -/

/-- A double in a document. -/
def doubleLiteral : Double → Text
  | .finite s a => Double.text (.finite s a)
  | .infinite s => if s then "-Infinity" else "Infinity"
  | .nan _ => "NaN"

/-- A double, unless the style forbids it. -/
def Style.double (style : Style) (x : Double) : Except WriteError Text :=
  if x.isFinite || style.allowNan then .ok (doubleLiteral x)
  else .error (.outOfRange (style.indent.map fun _ => x.text))

/-! ### Documents -/

/-- The start of a line at a depth of nesting. -/
def Style.newline (style : Style) (depth : Nat) : Text :=
  match style.indent with
  | none => []
  | some indent => .scalar '\n' :: (List.replicate depth indent).flatten

/-- What stands in brackets, each item on a line of its own if the style is indented. -/
def Style.enclosed (style : Style) (depth : Nat) (opening closing : CodePoint)
    (items : List Text) : Text :=
  if items.isEmpty then [opening, closing]
  else
    opening :: (style.newline (depth + 1) ++
      Text.joined (style.itemSeparator ++ style.newline (depth + 1)) items ++
        style.newline depth ++ [closing])

/-- What stands under keys, in the order of the style. -/
def Style.arranged {α : Type} (style : Style) (entries : List (Text × α)) : List (Text × α) :=
  if style.sortKeys then entries.mergeSort (fun a b => a.1.le b.1) else entries

mutual

/-- A datum as a document at a depth of nesting. -/
def Style.write (style : Style) (depth : Nat) : Datum → Except WriteError Text
  | .null => .ok "null"
  | .bool b => .ok (if b then "true" else "false")
  | .integer n => .ok (Text.ofInt n)
  | .double x => style.double x
  | .text t => .ok (stringLiteral style.asciiOnly t)
  | .list items =>
    (style.writeItems (depth + 1) items).map
      (style.enclosed depth (.scalar '[') (.scalar ']'))
  | .dict entries =>
    ((style.arranged (style.writeEntries (depth + 1) entries)).mapM Prod.snd).map
      (style.enclosed depth (.scalar '{') (.scalar '}'))
  | d => .error (.unserializable d.kindName)

/-- The items of a list. -/
def Style.writeItems (style : Style) (depth : Nat) : List Datum → Except WriteError (List Text)
  | [] => .ok []
  | d :: ds => do
    let t ← style.write depth d
    let ts ← style.writeItems depth ds
    .ok (t :: ts)

/-- The entries of a dictionary, each beside its key. -/
def Style.writeEntries (style : Style) (depth : Nat) :
    List (Text × Datum) → List (Text × Except WriteError Text)
  | [] => []
  | (key, d) :: entries =>
    (key, (style.write depth d).map
      (stringLiteral style.asciiOnly key ++ style.keySeparator ++ ·)) ::
        style.writeEntries depth entries

end

end Reckoner.Json
