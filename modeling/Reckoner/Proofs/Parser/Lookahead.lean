import Reckoner.Parser.Equations
import Reckoner.Proofs.Token.Stream

/-!
# Paths of the lookahead

A parser is *clear* when its current token is no lexical error. From a clear parser, reading on
is deterministic: the next token becomes current (`Parser.next`), and the step has failed exactly
if that token is an error.

* `Parser.stream` lists what a parser has in front of it, from the current token to the end.
* `Parser.Path p ts q` says that reading over the terminals `ts`, without meeting a lexical error,
  leads from `p` to `q`.

What accepting a token can do is stated once, in `accept_cases` and `choose_cases`; the outcome of
an alternative is never taken apart again. Main statements: paths and streams determine each other
(`Path.exists_stream_eq`, `exists_path_of_stream_eq`).
-/

namespace Reckoner

/-- A terminal either is no error, or is one. -/
theorem Terminal.error?_eq_none_or (k : Terminal) : k.error? = none ∨ ∃ e, k = .error e := by
  cases k with
  | error e => exact .inr ⟨e, rfl⟩
  | _ => exact .inl rfl

namespace Parser

/-! ### What the rules look for -/

theorem eq_number_of_number? {k : Terminal} {x : Double} (h : number? k = some x) :
    k = .number x := by
  cases k <;> cases h
  rfl

theorem eq_leftParen_of_ofKind? {k : Terminal} {u : Unit} (h : ofKind? .leftParen k = some u) :
    k = .leftParen := by
  cases k <;> first | rfl | cases h

theorem eq_rightParen_of_ofKind? {k : Terminal} {u : Unit} (h : ofKind? .rightParen k = some u) :
    k = .rightParen := by
  cases k <;> first | rfl | cases h

/-! ### The next token -/

/-- The parser whose current token is the first one at a cursor, whatever that token is. -/
def start (c : Cursor) : Parser := ⟨c.next.1, c.next.2⟩

/-- The parser with the next token current, whatever that token is. -/
def next (p : Parser) : Parser := start p.cursor

/-- A parser is **clear** when its current token is no lexical error. -/
def IsClear (p : Parser) : Prop := p.current.terminal.error? = none

theorem read_of_isClear {c : Cursor} (h : (start c).IsClear) : read c = (.ok (), start c) := by
  have h' : c.next.1.terminal.error? = none := h
  simp [read, h', start]

theorem read_of_error {c : Cursor} {e : LexicalError}
    (h : (start c).current.terminal = .error e) :
    read c = (.error (.parse ⟨.lexicalError, (start c).current, some e⟩), start c) := by
  have h' : c.next.1.terminal.error? = some e := by
    rw [show c.next.1.terminal = .error e from h]
    rfl
  simp [read, h', start, Fault.raise, ParseError.Kind.fits]

/-- Reading on lowers what is left. -/
theorem remaining_next_lt {p : Parser} (h : p.atEnd = false) : p.next.remaining < p.remaining := by
  have hlt := remaining_advance_lt h
  rcases p.next.current.terminal.error?_eq_none_or with hc | ⟨e, he⟩
  · have hr : read p.cursor = (.ok (), p.next) := read_of_isClear hc
    rwa [advance, h, if_neg Bool.false_ne_true, pull, hr] at hlt
  · have hr : read p.cursor = (.error _, p.next) := read_of_error he
    rwa [advance, h, if_neg Bool.false_ne_true, pull, hr] at hlt

/-! ### Accepting -/

section Accept

variable {α β : Type} {select : Terminal → Option α} {p : Parser} {a : α}

theorem accept_of_none (h : select p.current.terminal = none) :
    p.accept select = (.ok none, p) := by
  unfold accept
  split
  · rfl
  · rw [h]

theorem accept_of_isClear (hp : p.atEnd = false) (hs : select p.current.terminal = some a)
    (hc : p.next.IsClear) : p.accept select = (.ok (some a), p.next) := by
  have hr : read p.cursor = (.ok (), p.next) := read_of_isClear hc
  simp [accept, hp, hs, advance, pull, hr]

theorem accept_of_error {e : LexicalError} (hp : p.atEnd = false)
    (hs : select p.current.terminal = some a) (he : p.next.current.terminal = .error e) :
    p.accept select =
      (.error (.parse ⟨.lexicalError, p.next.current, some e⟩), p.next) := by
  have hr : read p.cursor =
      (.error (.parse ⟨.lexicalError, p.next.current, some e⟩), p.next) := read_of_error he
  simp [accept, hp, hs, advance, pull, hr]

/-- **What accepting can do**: the current token is refused, as the end of the input always is; or
it is accepted; or it is accepted and the token behind it is a lexical error, which ends the
step. -/
theorem accept_cases (select : Terminal → Option α) (p : Parser) :
    ((p.atEnd = true ∨ select p.current.terminal = none) ∧ p.accept select = (.ok none, p)) ∨
    (∃ a, p.atEnd = false ∧ select p.current.terminal = some a ∧ p.next.IsClear ∧
      p.accept select = (.ok (some a), p.next)) ∨
    (∃ a e, p.atEnd = false ∧ select p.current.terminal = some a ∧
      p.next.current.terminal = .error e ∧
      p.accept select =
        (.error (.parse ⟨.lexicalError, p.next.current, some e⟩), p.next)) := by
  cases hp : p.atEnd with
  | true => exact .inl ⟨.inl rfl, by simp [accept, hp]⟩
  | false =>
    cases hs : select p.current.terminal with
    | none => exact .inl ⟨.inr rfl, accept_of_none hs⟩
    | some a =>
      rcases p.next.current.terminal.error?_eq_none_or with hc | ⟨e, he⟩
      · exact .inr (.inl ⟨a, rfl, rfl, hc, accept_of_isClear hp hs hc⟩)
      · exact .inr (.inr ⟨a, e, rfl, rfl, he, accept_of_error hp hs he⟩)

variable {accepted : α → Parser → Outcome β} {otherwise : Outcome β}

theorem choose_of_none (h : select p.current.terminal = none) :
    p.choose select accepted otherwise = otherwise := by
  rw [choose, accept_of_none h]
  rfl

theorem choose_of_isClear (hp : p.atEnd = false) (hs : select p.current.terminal = some a)
    (hc : p.next.IsClear) : p.choose select accepted otherwise = accepted a p.next := by
  rw [choose, accept_of_isClear hp hs hc]
  rfl

/-- What an alternative can do, if the end of the input is nothing that it looks for. -/
theorem choose_cases (p : Parser) (accepted : α → Parser → Outcome β) (otherwise : Outcome β)
    (hend : select .finish = none) :
    (select p.current.terminal = none ∧
      p.choose select accepted otherwise = otherwise) ∨
    (∃ a, p.atEnd = false ∧ select p.current.terminal = some a ∧ p.next.IsClear ∧
      p.choose select accepted otherwise = accepted a p.next) ∨
    (∃ a e, p.atEnd = false ∧ select p.current.terminal = some a ∧
      p.next.current.terminal = .error e ∧
      p.choose select accepted otherwise =
        (.error (.parse ⟨.lexicalError, p.next.current, some e⟩), p.next)) := by
  rcases p.accept_cases select with
    ⟨hs, hr⟩ | ⟨a, hp, hs, hc, hr⟩ | ⟨a, e, hp, hs, he, hr⟩
  · have hnone : select p.current.terminal = none := by
      rcases hs with hf | hs
      · rw [Terminal.isFinish_eq_true.mp hf, hend]
      · exact hs
    exact .inl ⟨hnone, choose_of_none hnone⟩
  · exact .inr (.inl ⟨a, hp, hs, hc, choose_of_isClear hp hs hc⟩)
  · exact .inr (.inr ⟨a, e, hp, hs, he, by rw [choose, hr]; rfl⟩)

theorem choose_eq_ok (hend : select .finish = none) {b : β} {q : Parser}
    (h : p.choose select accepted otherwise = (.ok b, q)) :
    (select p.current.terminal = none ∧ otherwise = (.ok b, q)) ∨
    (∃ a, p.atEnd = false ∧ select p.current.terminal = some a ∧ p.next.IsClear ∧
      accepted a p.next = (.ok b, q)) := by
  rcases choose_cases p accepted otherwise hend with
    ⟨hs, hr⟩ | ⟨a, hp, hs, hc, hr⟩ | ⟨a, e, -, -, -, hr⟩
  · exact .inl ⟨hs, hr.symm.trans h⟩
  · exact .inr ⟨a, hp, hs, hc, hr.symm.trans h⟩
  · cases hr.symm.trans h

/-- Going on with a result succeeds when there is one and what follows succeeds. -/
theorem andThen_eq_ok {r : Outcome α} {next : α → Parser → Outcome β} {b : β} {q : Parser}
    (h : Outcome.andThen r next = (.ok b, q)) :
    ∃ a s, r = (.ok a, s) ∧ next a s = (.ok b, q) := by
  obtain ⟨f | a, s⟩ := r
  · cases h
  · exact ⟨a, s, rfl, h⟩

end Accept

/-! ### Streams -/

/-- The tokens in front of a parser: the current one and all that follow, the end included. -/
def stream (p : Parser) : List Token :=
  if p.atEnd then [p.current] else p.current :: p.cursor.tokens

theorem stream_start (c : Cursor) : (start c).stream = c.tokens := by
  rw [Cursor.tokens]
  unfold stream atEnd start
  split <;> rfl

theorem stream_of_atEnd {p : Parser} (h : p.atEnd = true) : p.stream = [p.current] := by
  simp [stream, h]

theorem stream_eq_cons {p : Parser} (h : p.atEnd = false) :
    p.stream = p.current :: p.next.stream := by
  rw [next, stream_start]
  simp [stream, h]

theorem exists_stream_eq_cons (p : Parser) : ∃ ks, p.stream = p.current :: ks := by
  unfold stream
  split <;> exact ⟨_, rfl⟩

/-! ### Paths -/

/-- A **path** from a parser to a parser over terminals: the first parser reads over them one by
one, meets no lexical error, and becomes the second. -/
inductive Path : Parser → List Terminal → Parser → Prop where
  | refl (p : Parser) : Path p [] p
  | step {p q : Parser} {ts : List Terminal} (hp : p.atEnd = false) (hc : p.next.IsClear)
      (h : Path p.next ts q) : Path p (p.current.terminal :: ts) q

namespace Path

variable {p q r : Parser} {ts us : List Terminal} {k : Terminal}

theorem cons_iff :
    Path p (k :: ts) q ↔
      p.current.terminal = k ∧ p.atEnd = false ∧ p.next.IsClear ∧ Path p.next ts q := by
  constructor
  · rintro ⟨⟩
    exact ⟨rfl, ‹_›, ‹_›, ‹_›⟩
  · rintro ⟨rfl, hp, hc, h⟩
    exact .step hp hc h

theorem append_iff : Path p (ts ++ us) r ↔ ∃ q, Path p ts q ∧ Path q us r := by
  induction ts generalizing p with
  | nil =>
    constructor
    · exact fun h => ⟨p, .refl p, h⟩
    · rintro ⟨q, ⟨⟩, h⟩
      exact h
  | cons k ts ih =>
    simp only [List.cons_append, cons_iff, ih]
    constructor
    · rintro ⟨hk, hp, hc, q, h₁, h₂⟩
      exact ⟨q, ⟨hk, hp, hc, h₁⟩, h₂⟩
    · rintro ⟨q, ⟨hk, hp, hc, h₁⟩, h₂⟩
      exact ⟨hk, hp, hc, q, h₁, h₂⟩

/-- A path leads from a clear parser to a clear one. -/
theorem isClear (h : Path p ts q) (hp : p.IsClear) : q.IsClear := by
  induction h with
  | refl => exact hp
  | step _ hc _ ih => exact ih hc

/-- A path reads over the first tokens of the stream. -/
theorem exists_stream_eq (h : Path p ts q) :
    ∃ ks : List Token, ks.map (·.terminal) = ts ∧ p.stream = ks ++ q.stream := by
  induction h with
  | refl p => exact ⟨[], rfl, rfl⟩
  | @step p q ts hp _ _ ih =>
    obtain ⟨ks, hks, hs⟩ := ih
    exact ⟨p.current :: ks, by rw [List.map_cons, hks], by rw [stream_eq_cons hp, hs]; rfl⟩

end Path

/-- What a stream begins with can be read, up to a token at which no error was met. -/
theorem exists_path_of_stream_eq {p : Parser} {ks js : List Token} {k : Token}
    (hs : p.stream = ks ++ k :: js) (hks : ∀ j ∈ ks, j.terminal.error? = none)
    (hk : k.terminal.error? = none) :
    ∃ q, Path p (ks.map (·.terminal)) q ∧ q.stream = k :: js := by
  induction ks generalizing p with
  | nil => exact ⟨p, .refl p, hs⟩
  | cons j ks ih =>
    -- at the end nothing is left in front of the parser but the end
    have hp : p.atEnd = false := by
      rw [Bool.eq_false_iff]
      intro hp
      rw [stream_of_atEnd hp, List.cons_append, List.cons.injEq] at hs
      cases ks <;> cases hs.2
    rw [stream_eq_cons hp, List.cons_append, List.cons.injEq] at hs
    obtain ⟨hcurrent, hnext⟩ := hs
    rw [List.forall_mem_cons] at hks
    have hc : p.next.IsClear := by
      obtain ⟨is, his⟩ := p.next.exists_stream_eq_cons
      rw [his] at hnext
      cases ks with
      | nil =>
        obtain ⟨hfirst, -⟩ := List.cons.inj hnext
        rwa [IsClear, hfirst]
      | cons i ks =>
        obtain ⟨hfirst, -⟩ := List.cons.inj hnext
        rw [IsClear, hfirst]
        exact hks.2 i List.mem_cons_self
    obtain ⟨q, hq, hqs⟩ := ih hnext hks.2
    exact ⟨q, Path.cons_iff.mpr ⟨congrArg _ hcurrent, hp, hc, hq⟩, hqs⟩

/-- What a stream begins with can be read, unless it is the whole stream or holds an error. -/
theorem exists_path_of_stream {p : Parser} {ts us : List Terminal}
    (hs : p.stream.map (·.terminal) = ts ++ us) (hus : us ≠ [])
    (hc : ∀ k ∈ p.stream, k.terminal.error? = none) :
    ∃ q, Path p ts q ∧ q.stream.map (·.terminal) = us := by
  obtain ⟨ks, ks', hks, rfl, rfl⟩ := List.map_eq_append_iff.mp hs
  rw [hks, List.forall_mem_append] at hc
  cases ks' with
  | nil => exact absurd rfl hus
  | cons k js =>
    rw [List.forall_mem_cons] at hc
    obtain ⟨q, hpath, hq⟩ := exists_path_of_stream_eq hks hc.1 hc.2.1
    exact ⟨q, hpath, congrArg _ hq⟩

end Parser

end Reckoner
