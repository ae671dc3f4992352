import Reckoner.Proofs.Expr.Locality
import Reckoner.Proofs.Parser.Relocation

/-!
# Parsing from the middle of a text

A parser can be made at any cursor. What it reads are the tokens of the text that is left there,
further on (`Cursor.tokens_mk_eq_map`), so parsing from a cursor is parsing what is left, further on
(`Expr.parseFrom_mk`). The cursor may stand where it likes: behind errors, or at the end of the
text.

Main statement: this for the cursors that reading tokens leads to, with the messages of the errors
(`Expr.parseFrom_skip`).
-/

namespace Reckoner

/-! ### Messages -/

/-- What a token is called does not depend on where it stands. -/
theorem Token.description_shifted (k : Nat) (t : Token) :
    (t.shifted k).description = t.description := by
  obtain ⟨position, terminal⟩ := t
  cases terminal <;> rfl

/-- The message of a lexical error names the index of the error, between two texts that do not
depend on it. -/
theorem LexicalError.exists_message (e : LexicalError) : ∃ before after : Text,
    ∀ i, { e with position := i }.message = before ++ Text.ofInt i ++ after := by
  obtain ⟨kind, position, character⟩ := e
  cases kind with
  | invalidCharacter =>
    exact ⟨"Use of invalid character " ++ character.elim ("None" : Text) Text.quoted ++
      " at index ", ".", fun i => rfl⟩
  | noDigitAfterPoint => exact ⟨_, ".", fun i => rfl⟩
  | noDigitAfterE => exact ⟨_, ".", fun i => rfl⟩

namespace ParseError

theorem shifted_zero (e : ParseError) : e.shifted 0 = e := by
  obtain ⟨kind, ⟨position, terminal⟩, lexical⟩ := e
  cases terminal <;> cases lexical <;>
    simp [shifted, Token.shifted, Terminal.shifted, LexicalError.shifted]

/-- A message names the index of the token and is the same further on but for this index, if the
lexical error, where there is one, stands at the token. -/
theorem exists_message {e : ParseError} (h : ∀ le ∈ e.lexical, le.position = e.token.position) :
    ∃ before after : Text, ∀ k : Nat,
      (e.shifted k).message = before ++ Text.ofInt (e.token.position + k) ++ after := by
  obtain ⟨kind, token, lexical⟩ := e
  cases lexical with
  | none =>
    refine ⟨"Expected " ++ kind.expected ++ " at index ",
      ", but got " ++ token.description ++ " instead.", fun k => ?_⟩
    have hmessage : (shifted k ⟨kind, token, none⟩).message =
        "Expected " ++ kind.expected ++ " at index " ++ Text.ofInt (token.position + k) ++
          ", but got " ++ (token.shifted k).description ++ " instead." := rfl
    rw [hmessage, token.description_shifted]
    simp only [List.append_assoc]
  | some le =>
    obtain ⟨before, after, hmessage⟩ := le.exists_message
    refine ⟨before, after, fun k => ?_⟩
    rw [← h le rfl]
    exact hmessage (le.position + k)

end ParseError

namespace Expr

open Reckoner.Parser

/-! ### Parsing what is left -/

/-- The root of the expression that is left at a cursor. -/
def parseFrom (c : Cursor) : Except Fault Expr :=
  match ofCursor c with
  | .ok p => p.expression.1
  | .error f => .error f

theorem parse_eq_parseFrom (t : Text) : parse t = parseFrom (.ofText t) := rfl

/-- Parsing reads the first token, and then an expression. -/
theorem parseFrom_eq (c : Cursor) :
    parseFrom c = (Outcome.andThen (read c) fun _ p => p.expression).1 := by
  unfold parseFrom ofCursor
  obtain ⟨f | u, p⟩ := read c <;> rfl

/-- **Parsing from a place on is parsing what is left there**, further on. -/
theorem parseFrom_mk (start p : Nat) (t : Text) :
    parseFrom ⟨start, p, t⟩ = (parse t).mapError (Fault.shifted p) := by
  have hopen : Shifted p (Parser.start (.ofText t)) (Parser.start ⟨start, p, t⟩) := by
    rw [Shifted, stream_start, stream_start]
    exact Cursor.tokens_mk_eq_map start p t
  rw [parse_eq_parseFrom, parseFrom_eq, parseFrom_eq]
  exact (hopen.read.andThen fun _ q r _ h => h.expression).result

/-- The lexical error that parsing ends with stands at its token. -/
theorem position_lexical_of_parse {s : Text} {e : ParseError} (h : parse s = .error (.parse e)) :
    ∀ le ∈ e.lexical, le.position = e.token.position := by
  intro le hle
  obtain ⟨m, hm, -⟩ :=
    exists_call_of_parsing (q := (parsing s).2) (Prod.ext ((fst_parsing s).trans h) rfl)
  have hterminal : (s.call m).1.terminal = .error le := by
    rw [(parse_eq_error_iff.mp h).2, hm] at hle
    rcases (s.call m).1.terminal.error?_eq_none_or with hnone | ⟨e, he⟩
    · rw [hnone] at hle
      cases hle
    · rw [he] at hle ⊢
      rw [Option.some.inj hle]
  obtain ⟨c, -, -, hfirst⟩ := (Text.tile_of_not_isFinish (by rw [hterminal]; rfl)).first
  rw [hm]
  exact (hfirst le hterminal).1

/-- **Parsing from the middle of a text is parsing the rest of it, further on.** Behind any number
of tokens that were read from a text, errors and repeated ends among them, parsing gives the tree
that the text that is left gives alone. If that fails, it fails with the same error, its token and
its lexical error as many characters further on as were read, and with the same message but for the
index in it. -/
theorem parseFrom_skip (s : Text) (k : Nat) :
    (∃ t, parse (s.drop (s.place k)) = .ok t ∧
      parseFrom ((Cursor.ofText s).skip k) = .ok t) ∨
    ∃ e before after, parse (s.drop (s.place k)) = .error (.parse e) ∧
      parseFrom ((Cursor.ofText s).skip k) = .error (.parse (e.shifted (s.place k))) ∧
      e.message = before ++ Text.ofInt e.token.position ++ after ∧
      (e.shifted (s.place k)).message =
        before ++ Text.ofInt (e.token.position + s.place k) ++ after := by
  have hrest : ((Cursor.ofText s).skip k).rest = s.drop (s.place k) :=
    ((Cursor.StandsIn.ofText s).skip k).rest_eq
  have hparse : parseFrom ((Cursor.ofText s).skip k) =
      (parse (s.drop (s.place k))).mapError (Fault.shifted (s.place k)) := by
    rw [← hrest]
    exact parseFrom_mk _ _ _
  cases h : parse (s.drop (s.place k)) with
  | ok t => exact .inl ⟨t, rfl, by rw [hparse, h]; rfl⟩
  | error f =>
    obtain ⟨kind, token, -, rfl⟩ := judge_of_parse_error h
    obtain ⟨before, after, hmessage⟩ := ParseError.exists_message (position_lexical_of_parse h)
    refine .inr ⟨_, before, after, rfl, by rw [hparse, h]; rfl, ?_, hmessage _⟩
    have hzero := hmessage 0
    rwa [ParseError.shifted_zero, Int.ofNat_zero, Int.add_zero] at hzero

end Expr

end Reckoner
