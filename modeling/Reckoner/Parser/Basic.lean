import Reckoner.ParseError
import Reckoner.Token.Cursor

/-!
# The parser's lookahead

A parser holds one token, which the next rule looks at, and the cursor behind it. A step answers
with a result or a fault, and in both cases with the parser it leaves behind: what a failed step
has consumed stays consumed.

* `Parser.pull` reads the next token, whatever the current one is. A lexical error that is read
  becomes the current token, and is the fault of the step.
* `Parser.advance` gives the current token and moves on; it must not be called at the end.
* `Parser.accept` advances over a token of the given form, or leaves everything as it is.

Main statement: accepting a token strictly lowers `Parser.remaining`, a bound on what is left to
read, and no step raises it (`Parser.remaining_accept_lt`, `Parser.remaining_accept_le`).
-/

namespace Reckoner

/-- A **parser**: the current token, and the cursor behind it. -/
structure Parser where
  current : Token
  cursor : Cursor
deriving DecidableEq

/-- What a step answers: its result or its fault, and the parser it leaves behind. -/
abbrev Outcome (α : Type) := Except Fault α × Parser

namespace Parser

/-- Whether the current token is the end of the input. -/
def atEnd (p : Parser) : Bool := p.current.terminal.isFinish

/-- Read the next token from a cursor. -/
def read (c : Cursor) : Outcome Unit :=
  let (token, cursor) := c.next
  match token.terminal.error? with
  | some e => (.error (.raise .lexicalError token (some e)), ⟨token, cursor⟩)
  | none => (.ok (), ⟨token, cursor⟩)

/-- Make the next token current. -/
def pull (p : Parser) : Outcome Unit := read p.cursor

/-- Give the current token, and make the next one current. -/
def advance (p : Parser) : Outcome Token :=
  if p.atEnd then (.error (.assertion .advancedPastEnd), p)
  else
    match p.pull with
    | (.ok (), q) => (.ok p.current, q)
    | (.error f, q) => (.error f, q)

/-- Advance over the current token if `select` finds a value in it; the end is never accepted. -/
def accept {α : Type} (select : Terminal → Option α) (p : Parser) : Outcome (Option α) :=
  if p.atEnd then (.ok none, p)
  else
    match select p.current.terminal with
    | none => (.ok none, p)
    | some a =>
      match p.advance with
      | (.ok _, q) => (.ok (some a), q)
      | (.error f, q) => (.error f, q)

/-- A parser at a cursor. There is none if the first token cannot be read. -/
def ofCursor (c : Cursor) : Except Fault Parser :=
  match read c with
  | (.ok (), p) => .ok p
  | (.error f, _) => .error f

/-- A parser at the beginning of a text. -/
def ofText (t : Text) : Except Fault Parser := ofCursor (.ofText t)

/-! ### What is left to read -/

/-- A bound on the tokens before the end, the current one included: at most one of them begins
with each character of the rest. -/
def remaining (p : Parser) : Nat := if p.atEnd then 0 else p.cursor.rest.length + 1

/-- What reading leaves is less than one more than the length of the input. -/
theorem remaining_read_le (c : Cursor) : (read c).2.remaining ≤ c.rest.length := by
  have key : ∀ token cursor, c.next = (token, cursor) →
      remaining ⟨token, cursor⟩ ≤ c.rest.length := by
    intro token cursor h
    unfold remaining atEnd
    split
    · exact Nat.zero_le _
    · next hf =>
      have := Cursor.length_rest_next_lt (c := c) (by rw [h]; simpa using hf)
      rw [h] at this
      exact this
  unfold read
  split
  next token cursor h =>
    split <;> exact key token cursor h

/-- Advancing from a token that is not the end lowers what is left. -/
theorem remaining_advance_lt {p : Parser} (h : p.atEnd = false) :
    p.advance.2.remaining < p.remaining := by
  have hr := remaining_read_le p.cursor
  have hp : p.remaining = p.cursor.rest.length + 1 := by simp [remaining, h]
  unfold advance pull
  rw [h, hp]
  simp only [Bool.false_eq_true, if_false]
  split <;> next q hq => rw [hq] at hr; exact Nat.lt_succ_of_le hr

/-- Accepting a token lowers what is left. -/
theorem remaining_accept_lt {α : Type} {select : Terminal → Option α} {p q : Parser} {a : α}
    (h : p.accept select = (.ok (some a), q)) : q.remaining < p.remaining := by
  unfold accept at h
  split at h
  · cases h
  · next he =>
    have hlt := remaining_advance_lt (p := p) (by simpa using he)
    split at h
    · cases h
    · split at h
      · next hq =>
        cases h
        rw [hq] at hlt
        exact hlt
      · cases h

/-- Accepting never raises what is left. -/
theorem remaining_accept_le {α : Type} (select : Terminal → Option α) (p : Parser) :
    (p.accept select).2.remaining ≤ p.remaining := by
  unfold accept
  split
  · exact Nat.le_refl _
  · next he =>
    have hlt := remaining_advance_lt (p := p) (by simpa using he)
    split
    · exact Nat.le_refl _
    · split <;> next hq => rw [hq] at hlt; exact Nat.le_of_lt hlt

end Parser

end Reckoner
