import Reckoner.Proofs.Expr.Continuation
import Reckoner.Proofs.Parser.Safety
import Reckoner.Proofs.Token.Locality

/-!
# Errors are local

What is wrong behind the place where parsing fails does not matter. Main statement: if parsing a text
fails before the text is read to its end, every text that agrees with it up to one character behind
what was read fails with the same error (`Expr.parse_eq_error_of_take`).

The parser has read as many tokens as the recognizer goes over, or more, when it fails
(`Expr.exists_call_of_parsing`), and a token depends on no more than one character behind it
(`Text.call_eq_of_take`). So the recognizer stops over both texts at the same token.
-/

namespace Reckoner

/-- What is no error is no number that breaks off. -/
theorem Terminal.isBrokenNumber_of_error? {k : Terminal} (h : k.error? = none) :
    k.isBrokenNumber = false := by
  cases k with
  | error e => cases h
  | _ => rfl

namespace Parser

/-- The last state that is visited from the start of a cursor is the start of a cursor behind it. -/
theorem Visits.eq_start {p q : Parser} {ps : List Parser} {c : Cursor} {i : Nat}
    (h : Visits p ps q) (hp : p = start (c.skip i)) : q = start (c.skip (i + ps.length)) := by
  induction h generalizing i with
  | nil p => exact hp
  | @cons p q ps _ ih =>
    rw [ih (i := i + 1) (by rw [hp, Cursor.skip_succ]; rfl), List.length_cons]
    congr 2
    omega

end Parser

namespace Text

variable {s : Text} {m n : Nat}

/-- A token that is no error stands in front of every later one. -/
theorem position_call_lt (hmn : m < n) (hf : (s.call m).1.terminal.isFinish = false)
    (he : (s.call m).1.terminal.error? = none) : (s.call m).1.position < (s.call n).1.position :=
  calc (s.call m).1.position
      < s.place (m + 1) :=
        (tile_of_not_isFinish hf).position_le_place.2 (Terminal.isBrokenNumber_of_error? he)
    _ ≤ s.place n := Int.ofNat_le.mpr (s.place_mono hmn)
    _ ≤ (s.call n).1.position := s.place_le_position_call n

end Text

namespace Expr

open Reckoner.Parser Reckoner.Recognizer

/-- What parsing a text comes to, and the parser that it leaves behind. -/
def parsing (s : Text) : Outcome Expr :=
  Outcome.andThen (read (.ofText s)) fun _ p => p.expression

theorem fst_parsing (s : Text) : (parsing s).1 = parse s := by
  unfold parsing parse Parser.ofText ofCursor
  obtain ⟨f | u, p⟩ := read (.ofText s) <;> rfl

variable {s s' : Text} {e : ParseError} {q : Parser}

/-- Parsing fails at the token that the last call gave. -/
theorem exists_call_of_parsing (h : parsing s = (.error (.parse e), q)) :
    ∃ m, e.token = (s.call m).1 ∧ q.cursor.position = s.place (m + 1) := by
  have hreported : Reported (parsing s) :=
    (Reported.read _).andThen fun _ p _ => reported_expression p
  rw [h] at hreported
  obtain ⟨_, he, htoken⟩ := (hreported _ rfl).exists_eq
  cases he
  obtain ⟨m, rfl⟩ : ∃ m, q = start ((Cursor.ofText s).skip m) := by
    have hopen := snd_read (.ofText s)
    unfold parsing at h
    cases hread : read (.ofText s) with
    | mk r p =>
      rw [hread] at h hopen
      subst hopen
      cases r with
      | error f =>
        cases h
        exact ⟨0, rfl⟩
      | ok u =>
        have hq : q = ((start (.ofText s)).run .sum).2 :=
          (congrArg Prod.snd h).symm.trans (snd_expression _)
        exact ⟨_, hq ▸ (visits_states .sum _).eq_start (i := 0) rfl⟩
  refine ⟨m, htoken, ?_⟩
  rw [Text.place_succ]
  rfl

/-- The recognizer goes over no more tokens in front of a token than calls were made to read that
token: those it goes over are no errors, so they stand further left. -/
theorem length_le_of_after? {js is : List Token} {k : Token} {S : State} {m : Nat}
    (htokens : s.tokens = js ++ k :: is)
    (hafter : (State.operand 0).after? (js.map (·.terminal)) = some S)
    (hk : k = (s.call m).1) : js.length ≤ m := by
  by_contra hlt
  have hm : m < js.length := Nat.lt_of_not_le hlt
  obtain ⟨he, hf⟩ := State.error?_of_after? hafter _ (List.mem_map_of_mem (List.getElem_mem hm))
  rw [← Text.call_of_lt_length htokens hm] at he hf
  have hposition := Text.position_call_lt hm hf he
  rw [Text.call_of_tokens_eq_append htokens, hk] at hposition
  exact absurd hposition (Int.lt_irrefl _)

/-- **Errors are local.** If parsing a text fails and the cursor is not at the end of the text then,
a text that agrees with it up to the character behind the cursor fails to parse with the same error:
the same kind, at the same token, with the same lexical error behind it, and so the same message. -/
theorem parse_eq_error_of_take (h : parsing s = (.error (.parse e), q))
    (hq : q.cursor.position < s.length)
    (hs : s'.take (q.cursor.position + 1) = s.take (q.cursor.position + 1)) :
    parse s' = .error (.parse e) := by
  obtain ⟨m, htoken, hm⟩ := exists_call_of_parsing h
  rw [hm] at hq hs
  have hparse : parse s = .error (.parse e) := by rw [← fst_parsing, h]
  obtain ⟨hjudge, hlexical⟩ := parse_eq_error_iff.mp hparse
  obtain ⟨js, is, S, htokens, hafter, hstop⟩ := exists_append_of_stopped hjudge
  have hle := length_le_of_after? htokens hafter htoken
  -- the other text has the same tokens, up to the one at which the recognizer stops
  obtain ⟨is', htokens'⟩ := Text.exists_tokens_eq_append htokens fun i hi =>
    (Text.call_eq_of_take hq hs (Nat.le_trans hi hle)).1
  refine parse_eq_error_iff.mpr ⟨?_, hlexical⟩
  rw [htokens', judge_append hafter, judge, hstop]

/-- In `1 2 $` the second number is not expected, and neither is it in `1 2 )+(`: the invalid
character was not read. -/
theorem parse_eq_error_of_take_number :
    ∃ e q, parsing "1 2 $" = (.error (.parse e), q) ∧ e.kind = .expectedEnd ∧
      e.token.position = 2 ∧ q.cursor.position = 3 ∧
      parse "1 2 )+(" = .error (.parse e) := by
  obtain ⟨x, hx⟩ : ∃ x, (start (.ofText "1 2 $")).current.terminal = .number x := ⟨_, rfl⟩
  have hopen : (start (.ofText "1 2 $")).IsClear := rfl
  have hsum : (start (.ofText "1 2 $")).sum = (.ok (.number x), (start (.ofText "1 2 $")).next) :=
    (run_eq_ok_iff .sum).mpr ⟨Path.cons_iff.mpr ⟨hx, rfl, rfl, .refl _⟩, rfl, rfl, rfl⟩
  have h : parsing "1 2 $" =
      (.error (.parse ⟨.expectedEnd, (start (.ofText "1 2 $")).next.current, none⟩),
        (start (.ofText "1 2 $")).next) := by
    rw [parsing, read_of_isClear hopen, Outcome.andThen, expression, hsum]
    rfl
  exact ⟨_, _, h, rfl, rfl, rfl, parse_eq_error_of_take h (by decide) (by decide)⟩

end Expr

end Reckoner
