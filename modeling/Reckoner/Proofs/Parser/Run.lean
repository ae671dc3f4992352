import Reckoner.Proofs.Parser.Trace
import Reckoner.Proofs.Token.Tiling

/-!
# Runs of a parser

A run takes steps one after another, and goes on also behind a step that failed. Tokens may be read
from its cursor behind the parser's back in between.

`Parser.record` lists what is read in a run, call by call: each call of the lexer gives a token that
becomes current, or one that is taken away (`Parser.Event`).

* The step lemma: the events of a step lead from its parser to the one it leaves behind
  (`Parser.reads_events`).
* The run lemma: so do the events of a run (`Parser.reads_record`).

Main statement: what a run reads are the calls of the lexer, one after another
(`Parser.record_conserves_tokens`).
-/

namespace Reckoner

namespace Parser

/-! ### Events -/

/-- An **event** of a run is a call of the lexer, and what its token was read for. -/
inductive Event where
  /-- The token became current: the parser went on to this state. -/
  | pulled (p : Parser)
  /-- The token was read behind the parser's back, which left this cursor. -/
  | bypassed (token : Token) (cursor : Cursor)

namespace Event

/-- What the call gave: the token, and the cursor behind it. -/
def call : Event → Token × Cursor
  | pulled p => (p.current, p.cursor)
  | bypassed token cursor => (token, cursor)

/-- The token, if it became current. -/
def current? : Event → Option Token
  | pulled p => some p.current
  | bypassed .. => none

end Event

/-- The events of a step. A failed assertion reads nothing. -/
def events (step : Step) (p : Parser) : List Event :=
  match step with
  | .expression | .sum => (p.states .sum).map .pulled
  | .product => (p.states .product).map .pulled
  | .signed => (p.states .signed).map .pulled
  | .primary => (p.states .primary).map .pulled
  | .advance =>
    match p.advance with
    | (.error (.assertion _), _) => []
    | (_, q) => [.pulled q]
  | .pull => [.pulled p.pull.2]
  | .accept kind => (p.chooseStates (ofKind? kind) (fun _ _ _ => []) []).map .pulled
  | .acceptOperator operators =>
    (p.chooseStates (operatorIn? operators) (fun _ _ _ => []) []).map .pulled
  | .bypass =>
    match p.step .bypass with
    | (.ok (.token token), q) => [.bypassed token q.cursor]
    | _ => []

/-- The parser behind steps that are taken one after another, whether they fail or not. -/
def after (steps : List Step) (p : Parser) : Parser :=
  steps.foldl (fun p step => (p.step step).2) p

/-- The events of steps that are taken one after another. -/
def record : List Step → Parser → List Event
  | [], _ => []
  | step :: steps, p => p.events step ++ record steps (p.step step).2

/-! ### Single steps -/

theorem snd_read (c : Cursor) : (read c).2 = start c := by
  rcases (start c).current.terminal.error?_eq_none_or with hc | ⟨e, he⟩
  · rw [read_of_isClear hc]
  · rw [read_of_error he]

theorem advance_of_atEnd {p : Parser} (h : p.atEnd = true) :
    p.advance = (.error (.assertion .advancedPastEnd), p) := by
  simp [advance, h]

/-- In front of the end, advancing gives the current token and leaves the next parser behind; it
fails if the next token is a lexical error. -/
theorem advance_cases {p : Parser} (h : p.atEnd = false) :
    p.advance = (.ok p.current, p.next) ∨
    ∃ e, p.next.current.terminal = .error e ∧
      p.advance = (.error (.parse ⟨.lexicalError, p.next.current, some e⟩), p.next) := by
  rcases p.next.current.terminal.error?_eq_none_or with hc | ⟨e, he⟩
  · have hr : read p.cursor = (.ok (), p.next) := read_of_isClear hc
    exact .inl (by simp [advance, h, pull, hr])
  · have hr : read p.cursor =
        (.error (.parse ⟨.lexicalError, p.next.current, some e⟩), p.next) := read_of_error he
    exact .inr ⟨e, he, by simp [advance, h, pull, hr]⟩

/-- What a step of accepting leaves behind is what accepting leaves behind. -/
theorem snd_accepted {α : Type} (p : Parser) (r : Outcome (Option α)) :
    (p.accepted r).2 = r.2 := by
  obtain ⟨_ | _ | _, _⟩ := r <;> rfl

theorem snd_expression (p : Parser) : p.expression.2 = p.sum.2 := by
  unfold expression
  obtain ⟨_ | _, q⟩ := p.sum
  · rfl
  · dsimp only
    split <;> rfl

/-! ### From event to event -/

/-- Events **lead** from a parser to another when each of them is the next call of the lexer, made to
go on or behind the parser's back. -/
inductive Reads : Parser → List Event → Parser → Prop where
  | nil (p : Parser) : Reads p [] p
  | pull {p q : Parser} {es : List Event} (h : Reads p.next es q) :
      Reads p (.pulled p.next :: es) q
  | bypass {p q : Parser} {es : List Event}
      (h : Reads { p with cursor := p.cursor.next.2 } es q) :
      Reads p (.bypassed p.cursor.next.1 p.cursor.next.2 :: es) q

namespace Reads

variable {p q r : Parser} {es fs : List Event} {s : Text} {i : Nat}

theorem append (h : Reads p es q) (h' : Reads q fs r) : Reads p (es ++ fs) r := by
  induction h with
  | nil => exact h'
  | pull _ ih => exact .pull (ih h')
  | bypass _ ih => exact .bypass (ih h')

theorem of_visits {ps : List Parser} (h : Visits p ps q) : Reads p (ps.map .pulled) q := by
  induction h with
  | nil p => exact .nil p
  | cons _ ih => exact .pull ih

theorem accept {α : Type} (select : Terminal → Option α) (p : Parser) :
    Reads p ((p.chooseStates select (fun _ _ _ => []) []).map .pulled) (p.accept select).2 := by
  have h : (p.choose select (fun a q => (.ok (some a), q)) (.ok none, p)).2 =
      (p.accept select).2 := by
    rcases p.accept_cases select with ⟨-, hr⟩ | ⟨a, -, -, -, hr⟩ | ⟨a, e, -, -, -, hr⟩ <;>
      rw [choose, hr] <;> rfl
  rw [← h]
  exact of_visits (.choose (.nil p) fun _ _ _ _ => .nil _)

/-- In a text the events are the calls of the lexer from the place of the cursor on. -/
theorem map_call (h : Reads p es q) (hp : p.cursor = (Cursor.ofText s).skip i) :
    es.map Event.call = (List.range' i es.length).map s.call ∧
      q.cursor = (Cursor.ofText s).skip (i + es.length) := by
  induction h generalizing i with
  | nil p => exact ⟨rfl, hp⟩
  | @pull p q es _ ih =>
    have hcall : (p.next.current, p.next.cursor) = s.call i := by
      rw [Text.call, ← hp]
      rfl
    obtain ⟨hcalls, hq⟩ := ih (i := i + 1) (by rw [Cursor.skip_succ, ← hp]; rfl)
    refine ⟨?_, by rw [hq, List.length_cons]; congr 1; omega⟩
    rw [List.map_cons, hcalls, List.length_cons, List.range'_succ, List.map_cons, ← hcall]
    rfl
  | @bypass p q es _ ih =>
    have hcall : p.cursor.next = s.call i := by rw [Text.call, ← hp]
    obtain ⟨hcalls, hq⟩ := ih (i := i + 1) (by rw [Cursor.skip_succ, ← hp])
    refine ⟨?_, by rw [hq, List.length_cons]; congr 1; omega⟩
    rw [List.map_cons, hcalls, List.length_cons, List.range'_succ, List.map_cons, ← hcall]
    rfl

/-- The current token is the last one that became current. -/
theorem current_eq (h : Reads p es q) :
    q.current = (es.filterMap Event.current?).getLastD p.current := by
  induction h with
  | nil p => rfl
  | @pull p q es _ ih =>
    have hcurrent : (Event.pulled p.next).current? = some p.next.current := rfl
    rw [ih, List.filterMap_cons_some hcurrent, List.getLastD_cons]
  | bypass _ ih => rw [ih, List.filterMap_cons_none rfl]

end Reads

/-- **The step lemma**: the events of a step lead to the parser that it leaves behind. -/
theorem reads_events (step : Step) (p : Parser) : Reads p (p.events step) (p.step step).2 := by
  have hgoal : ∀ g, Reads p ((p.states g).map .pulled) (p.run g).2 :=
    fun g => .of_visits (p.visits_states g)
  cases step with
  | expression =>
    have h : (p.step .expression).2 = (p.run .sum).2 := p.snd_expression
    rw [h]
    exact hgoal .sum
  | sum => exact hgoal .sum
  | product => exact hgoal .product
  | signed => exact hgoal .signed
  | primary => exact hgoal .primary
  | advance =>
    unfold events step
    cases hp : p.atEnd with
    | true =>
      rw [advance_of_atEnd hp]
      exact .nil p
    | false =>
      rcases advance_cases hp with hr | ⟨e, -, hr⟩ <;> rw [hr] <;> exact .pull (.nil _)
  | pull =>
    have h : p.pull.2 = p.next := snd_read p.cursor
    have hstep : (p.step .pull).2 = p.pull.2 := rfl
    rw [events, hstep, h]
    exact .pull (.nil _)
  | accept kind =>
    have h : (p.step (.accept kind)).2 = (p.accept (ofKind? kind)).2 := snd_accepted p _
    rw [h]
    exact .accept _ p
  | acceptOperator operators =>
    have h : (p.step (.acceptOperator operators)).2 = (p.accept (operatorIn? operators)).2 :=
      snd_accepted p _
    rw [h]
    exact .accept _ p
  | bypass => exact .bypass (.nil _)

/-- **The run lemma**: the events of a run lead to the parser that it leaves behind. -/
theorem reads_record (steps : List Step) (p : Parser) :
    Reads p (p.record steps) (p.after steps) := by
  induction steps generalizing p with
  | nil => exact .nil p
  | cons step steps ih => exact (reads_events step p).append (ih _)

/-! ### Steps that accept -/

/-- The steps that **accept** a token of some form. -/
inductive Step.Accepts : Step → Prop where
  | kind (k : Terminal.Kind) : Accepts (.accept k)
  | operator (os : List Operator) : Accepts (.acceptOperator os)

/-- Accepting answers with the token that was current and goes on to the next one, or answers with
nothing and changes nothing; or it fails at a lexical error behind the token. -/
theorem Step.Accepts.cases {step : Step} (h : step.Accepts) (p : Parser) :
    p.step step = (.ok .nothing, p) ∨ p.step step = (.ok (.token p.current), p.next) ∨
      ∃ e, p.step step = (.error (.parse ⟨.lexicalError, p.next.current, some e⟩), p.next) := by
  have accepting : ∀ {α : Type} (select : Terminal → Option α),
      p.accepted (p.accept select) = (.ok .nothing, p) ∨
      p.accepted (p.accept select) = (.ok (.token p.current), p.next) ∨
      ∃ e, p.accepted (p.accept select) =
        (.error (.parse ⟨.lexicalError, p.next.current, some e⟩), p.next) := by
    intro α select
    rcases p.accept_cases select with ⟨-, hr⟩ | ⟨a, -, -, -, hr⟩ | ⟨a, e, -, -, -, hr⟩ <;> rw [hr]
    · exact .inl rfl
    · exact .inr (.inl rfl)
    · exact .inr (.inr ⟨e, rfl⟩)
  cases h with
  | kind k => exact accepting (ofKind? k)
  | operator os => exact accepting (operatorIn? os)

/-- What is accepted is the token that was current, and what is refused stays. -/
theorem Step.Accepts.answer {step : Step} (h : step.Accepts) {p q : Parser}
    {r : Except Fault Answer} (hr : p.step step = (r, q)) :
    (∀ t, r = .ok (.token t) → t = p.current) ∧ (r = .ok .nothing → q = p) := by
  rcases h.cases p with hstep | hstep | ⟨e, hstep⟩ <;>
    obtain ⟨rfl, rfl⟩ := Prod.mk.inj (hr.symm.trans hstep)
  · exact ⟨nofun, fun _ => rfl⟩
  · refine ⟨?_, nofun⟩
    rintro t ⟨⟩
    rfl
  · exact ⟨nofun, nofun⟩

/-! ### Steps that advance -/

theorem step_advance (p : Parser) : p.step .advance = p.advance.map (·.map .token) id := rfl

/-- A step that advances at the end fails its assertion and does nothing. -/
theorem step_advance_of_atEnd {p : Parser} (h : p.atEnd = true) :
    p.step .advance = (.error (.assertion .advancedPastEnd), p) := by
  rw [step_advance, advance_of_atEnd h]
  rfl

/-- An advance that fails an assertion leaves everything as it is. -/
theorem eq_of_step_advance {p q : Parser} {a : Assertion}
    (h : p.step .advance = (.error (.assertion a), q)) : q = p := by
  cases hp : p.atEnd with
  | true => exact (congrArg Prod.snd ((step_advance_of_atEnd hp).symm.trans h)).symm
  | false =>
    rcases advance_cases hp with hr | ⟨e, -, hr⟩ <;> rw [step_advance, hr] at h <;> cases h

end Parser

/-! ### Runs over a text -/

namespace Text

open Reckoner.Parser

/-- The parser that is made behind `k` tokens of a text. If its first token is a lexical error the
making fails, and this is the parser that it leaves behind. -/
def parser (s : Text) (k : Nat) : Parser := (read ((Cursor.ofText s).skip k)).2

/-- What is read in a run over a text: the first token of the parser, and the events of the steps. -/
def record (s : Text) (k : Nat) (steps : List Step) : List Event :=
  .pulled (s.parser k) :: (s.parser k).record steps

theorem parser_eq_start (s : Text) (k : Nat) : s.parser k = start ((Cursor.ofText s).skip k) :=
  snd_read _

/-- Behind the end of a text the lexer stays. -/
theorem position_of_call_isFinish {s : Text} {i : Nat}
    (h : (s.call i).1.terminal.isFinish = true) : (s.call i).2.position = s.length := by
  rcases s.call_cases i with htile | ⟨-, hposition, -⟩
  · rw [htile.not_finish] at h
    cases h
  · exact hposition

/-- What a run reads are the calls of the lexer from number `k` on, and the parser that is left
behind stands where the last of them ended. -/
theorem map_call_record (s : Text) (k : Nat) (steps : List Step) :
    (s.record k steps).map Event.call =
        (List.range' k (s.record k steps).length).map s.call ∧
      ((s.parser k).after steps).cursor = (s.call (k + ((s.parser k).record steps).length)).2 := by
  have hparser := s.parser_eq_start k
  have hcursor : (s.parser k).cursor = (Cursor.ofText s).skip (k + 1) := by
    rw [hparser, Cursor.skip_succ]
    rfl
  obtain ⟨hcalls, hafter⟩ := (reads_record steps (s.parser k)).map_call hcursor
  have hfirst : (Event.pulled (s.parser k)).call = s.call k := by
    rw [hparser]
    rfl
  refine ⟨?_, ?_⟩
  · rw [record, List.map_cons, hfirst, hcalls, List.length_cons, List.range'_succ, List.map_cons]
  · rw [hafter, Text.call, ← Cursor.skip_succ]
    congr 1
    omega

/-- The current token is the last one in a run that became current. -/
theorem current_record (s : Text) (k : Nat) (steps : List Step) :
    ((s.record k steps).filterMap Event.current?).getLast? =
      some ((s.parser k).after steps).current := by
  have hcurrent : (Event.pulled (s.parser k)).current? = some (s.parser k).current := rfl
  rw [record, List.filterMap_cons_some hcurrent, List.getLast?_cons,
    (reads_record steps (s.parser k)).current_eq, List.getLastD_eq_getLast?]

/-- The cursor stands behind the last token that was read in a run. -/
theorem cursor_record (s : Text) (k : Nat) (steps : List Step) :
    ((s.record k steps).map Event.call).getLast?.map Prod.snd =
      some ((s.parser k).after steps).cursor := by
  obtain ⟨hcalls, hcursor⟩ := s.map_call_record k steps
  have hlength : (s.record k steps).length = ((s.parser k).record steps).length + 1 := rfl
  rw [hcalls, hlength, List.range'_concat, List.map_append, List.map_singleton,
    List.getLast?_concat, hcursor, Nat.one_mul]
  rfl

/-- Once the end was read in a run, the cursor stands at the end of the text. -/
theorem position_record {s : Text} {k : Nat} {steps : List Step}
    (h : ∃ e ∈ s.record k steps, e.call.1.terminal = .finish) :
    ((s.parser k).after steps).cursor.position = s.length := by
  obtain ⟨hcalls, hcursor⟩ := s.map_call_record k steps
  obtain ⟨e, he, hf⟩ := h
  have hmem : e.call ∈ (List.range' k (s.record k steps).length).map s.call := by
    rw [← hcalls]
    exact List.mem_map_of_mem he
  obtain ⟨i, hi, hcall⟩ := List.mem_map.mp hmem
  have hle : i ≤ k + ((s.parser k).record steps).length := by
    have hlt : i < k + (s.record k steps).length := (List.mem_range'_1.mp hi).2
    have hlength : (s.record k steps).length = ((s.parser k).record steps).length + 1 := rfl
    omega
  have hfinish : (s.call i).1.terminal.isFinish = true := by
    rw [hcall, hf]
    rfl
  -- the end is read again by every later call
  rw [hcursor, position_of_call_isFinish (isFinish_call_of_le hfinish hle)]

end Text

namespace Parser

open Text (record parser)

/-- **Runs conserve the tokens of the text.** In every run, failed steps included, the tokens that
become current and those that are read behind the parser's back are, in the order of time, the
tokens of the lexer from number `k` on, the end being read again once it is reached. The current
token is always the last one that became current, and the cursor always stands behind the token
that was read last: at the end of the text, once the end was read. A step that accepts answers with
the token that was current, or with nothing and leaves everything as it is; and so does an advance
that fails its assertion. -/
theorem record_conserves_tokens (s : Text) (k : Nat) (steps : List Step) :
    (s.record k steps).map Event.call =
        (List.range' k (s.record k steps).length).map s.call ∧
      ((s.record k steps).filterMap Event.current?).getLast? =
        some ((s.parser k).after steps).current ∧
      ((s.record k steps).map Event.call).getLast?.map Prod.snd =
        some ((s.parser k).after steps).cursor ∧
      ((∃ e ∈ s.record k steps, e.call.1.terminal = .finish) →
        ((s.parser k).after steps).cursor.position = s.length) ∧
      (∀ (step : Step) (r : Except Fault Answer) (q : Parser), step.Accepts →
        ((s.parser k).after steps).step step = (r, q) →
          (∀ t, r = .ok (.token t) → t = ((s.parser k).after steps).current) ∧
          (r = .ok .nothing → q = (s.parser k).after steps)) ∧
      ∀ (a : Assertion) (q : Parser),
        ((s.parser k).after steps).step .advance = (.error (.assertion a), q) →
          q = (s.parser k).after steps :=
  ⟨(s.map_call_record k steps).1, s.current_record k steps, s.cursor_record k steps,
    Text.position_record, fun _ _ _ h => h.answer, fun _ _ => eq_of_step_advance⟩

end Parser

end Reckoner
