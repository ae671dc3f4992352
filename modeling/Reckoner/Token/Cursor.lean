import Reckoner.Text.Blank
import Reckoner.Token.Basic

/-!
# Lexing

A cursor stands between two characters of the input. `Cursor.next` skips blanks and reads one
token, so tokens are made one at a time, on request.

A number is scanned by maximal munch: `scan` follows a machine of six stages (`Stage`) as far as
it goes and never backs up. If it stops at a stage where a digit is missing, all that was scanned
is an error, whose position is the place of the missing digit.

Main statement: reading a token other than the end makes the rest of the input shorter
(`Cursor.length_rest_next_lt`).
-/

namespace Reckoner

/-! ### Numbers -/

/-- Where the scanner is within a number. -/
inductive Stage where
  | integer
  | point
  | fraction
  | exponent
  | exponentSign
  | exponentDigits
deriving DecidableEq

/-- What a code point is to the scanner. -/
inductive DigitClass where
  | digit
  | point
  | exponent
  | sign
  | other
deriving DecidableEq

/-- The class of a code point within a number. -/
def CodePoint.digitClass (c : CodePoint) : DigitClass :=
  if c.isDigit then .digit
  else if c = .scalar '.' then .point
  else if c = .scalar 'e' || c = .scalar 'E' then .exponent
  else if c = .scalar '+' || c = .scalar '-' then .sign
  else .other

namespace Stage

/-- The stage after one more character, if the number goes on with it. -/
def next? : Stage → DigitClass → Option Stage
  | integer, .digit => some integer
  | integer, .point => some point
  | integer, .exponent => some exponent
  | point, .digit => some fraction
  | fraction, .digit => some fraction
  | fraction, .exponent => some exponent
  | exponent, .sign => some exponentSign
  | exponent, .digit => some exponentDigits
  | exponentSign, .digit => some exponentDigits
  | exponentDigits, .digit => some exponentDigits
  | _, _ => none

/-- What is wrong with a number that ends at this stage, if anything. -/
def missing? : Stage → Option LexicalError.Kind
  | point => some .noDigitAfterPoint
  | exponent | exponentSign => some .noDigitAfterE
  | integer | fraction | exponentDigits => none

/-- What the scanner leaves behind: the stage it stopped at, what it took, and the rest. -/
structure Scan where
  stage : Stage
  taken : Text
  rest : Text

/-- Follow the machine from a stage as far as it goes. -/
def scan (s : Stage) : Text → Scan
  | [] => ⟨s, [], []⟩
  | c :: t =>
    match s.next? c.digitClass with
    | none => ⟨s, [], c :: t⟩
    | some s' =>
      let r := scan s' t
      ⟨r.stage, c :: r.taken, r.rest⟩

/-- The scanner splits the text: nothing is lost and nothing is read twice. -/
theorem taken_append_rest (s : Stage) (t : Text) : (s.scan t).taken ++ (s.scan t).rest = t := by
  induction t generalizing s with
  | nil => rfl
  | cons c t ih =>
    unfold scan
    split
    · rfl
    · simp [ih]

/-- The rest is no longer than the text. -/
theorem length_rest_scan_le (s : Stage) (t : Text) : (s.scan t).rest.length ≤ t.length := by
  have h := congrArg List.length (taken_append_rest s t)
  simp only [List.length_append] at h
  omega

end Stage

/-! ### Cursors -/

/-- A **cursor** is a place in the input: the start of the token read last, the index of the next
character, and the input from there on. -/
structure Cursor where
  start : Nat
  position : Nat
  rest : Text
deriving DecidableEq

/-- The terminal that a single character is. -/
def CodePoint.terminal? : CodePoint → Option Terminal
  | .scalar '(' => some .leftParen
  | .scalar ')' => some .rightParen
  | .scalar c => (Operator.ofChar? c).map .operator
  | .surrogate _ => none

namespace Cursor

/-- The beginning of a text. -/
def ofText (t : Text) : Cursor := ⟨0, 0, t⟩

/-- Whether all input has been read. -/
def atEnd (c : Cursor) : Bool := c.rest.isEmpty

/-- The cursor behind the blanks at its place. Every blank that is looked at becomes the start. -/
def skipBlanks (c : Cursor) : Cursor :=
  let n := (c.rest.takeWhile CodePoint.isBlank).length
  ⟨if n = 0 then c.start else c.position + n - 1, c.position + n,
    c.rest.dropWhile CodePoint.isBlank⟩

/-- The token of a number whose first digit `first` is at `start`, and the cursor behind it. -/
def number (start : Nat) (first : CodePoint) (t : Text) : Token × Cursor :=
  let scan := Stage.integer.scan t
  let finish := start + 1 + scan.taken.length
  let token : Token :=
    match scan.stage.missing? with
    | some kind => ⟨finish, .error ⟨kind, finish, none⟩⟩
    | none =>
      ⟨start, .number ((Numeral.decimalOf (first :: scan.taken)).toDouble false)⟩
  (token, ⟨start, finish, scan.rest⟩)

/-- The token that begins with the character `first` at `start`, and the cursor behind it. -/
def token (start : Nat) (first : CodePoint) (t : Text) : Token × Cursor :=
  match first.terminal? with
  | some terminal => (⟨start, terminal⟩, ⟨start, start + 1, t⟩)
  | none =>
    if first.isDigit then number start first t
    else
      (⟨start, .error ⟨.invalidCharacter, start, some [first]⟩⟩, ⟨start, start + 1, t⟩)

/-- Read the next token. At the end of the input it is the end, as often as it is asked for. -/
def next (c : Cursor) : Token × Cursor :=
  let d := c.skipBlanks
  match d.rest with
  | [] => (⟨d.position, .finish⟩, d)
  | first :: t => token d.position first t

/-! ### Reading makes progress -/

/-- Skipping blanks does not make the rest longer. -/
theorem length_rest_skipBlanks_le (c : Cursor) : c.skipBlanks.rest.length ≤ c.rest.length :=
  (List.dropWhile_sublist _).length_le

/-- A token leaves no more than what follows its first character. -/
theorem length_rest_token_le (start : Nat) (first : CodePoint) (t : Text) :
    (token start first t).2.rest.length ≤ t.length := by
  unfold token
  split
  · exact Nat.le_refl _
  · split
    · exact Stage.length_rest_scan_le _ _
    · exact Nat.le_refl _

/-- Reading a token other than the end makes the rest shorter. -/
theorem length_rest_next_lt {c : Cursor} (h : c.next.1.terminal.isFinish = false) :
    c.next.2.rest.length < c.rest.length := by
  have hs := length_rest_skipBlanks_le c
  unfold next at h ⊢
  simp only at h ⊢
  split
  · next hd => simp [hd, Terminal.isFinish] at h
  · next first t hd =>
    have := length_rest_token_le c.skipBlanks.position first t
    rw [hd, List.length_cons] at hs
    omega

/-! ### Runs -/

/-- All tokens from a cursor on, up to and including the end. -/
def tokens (c : Cursor) : List Token :=
  if _h : c.next.1.terminal.isFinish then [c.next.1] else c.next.1 :: tokens c.next.2
termination_by c.rest.length
decreasing_by exact length_rest_next_lt (by simpa using _h)

/-- Read at most `n` tokens, stopping behind the end. -/
def take : Nat → Cursor → List Token × Cursor
  | 0, c => ([], c)
  | n + 1, c =>
    let (t, c) := c.next
    if t.terminal.isFinish then ([t], c)
    else
      let (ts, c) := take n c
      (t :: ts, c)

/-- The cursor behind `n` tokens, the end being read again once it is reached. -/
def skip : Nat → Cursor → Cursor
  | 0, c => c
  | n + 1, c => skip n c.next.2

end Cursor

/-- The tokens of a text, the end included. -/
def Text.tokens (t : Text) : List Token := (Cursor.ofText t).tokens

end Reckoner
