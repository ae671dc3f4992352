import Reckoner.Proofs.Parser.Levels
import Reckoner.Proofs.Token.Relocation

/-!
# Parsers further on

A parser acts on the tokens in front of it and on nothing else. So where two parsers have the same
tokens in front of them, those of the second one `k` characters further on (`Parser.Shifted`), they
do the same: they give the same trees, and the same faults `k` characters further on.

* The step lemma: what is accepted at one of them is accepted at the other
  (`Parser.Shifted.accept`).
* The run lemma: so it is with every goal (`Parser.Shifted.run`).

Main statement: `Parser.Shifted.expression`.
-/

namespace Reckoner

/-- The same parse error, `k` characters further on. -/
def ParseError.shifted (k : Nat) (e : ParseError) : ParseError :=
  ⟨e.kind, e.token.shifted k, e.lexical.map (LexicalError.shifted k)⟩

/-- The same fault, `k` characters further on. Failed assertions hold no positions. -/
def Fault.shifted (k : Nat) : Fault → Fault
  | parse e => parse (e.shifted k)
  | assertion a => assertion a

theorem Fault.unexpected_shifted (k : Nat) (kind : ParseError.Kind) (t : Token) :
    unexpected kind (t.shifted k) = (unexpected kind t).shifted k := by
  cases kind <;> rfl

namespace Parser

variable {α β : Type} {k : Nat} {p q : Parser}

/-! ### Parsers and outcomes -/

/-- A parser is another one **shifted** by `k` characters when it has the same tokens in front of
it, `k` characters further on. -/
def Shifted (k : Nat) (p q : Parser) : Prop := q.stream = p.stream.map (Token.shifted k)

/-- An outcome is another one **shifted**: with the same result, or the same fault further on, and
with the parser that is left behind shifted. -/
structure Outcome.Shifted (k : Nat) (r r' : Outcome α) : Prop where
  result : r'.1 = r.1.mapError (Fault.shifted k)
  behind : Parser.Shifted k r.2 r'.2

/-- What is selected does not depend on where it stands. -/
def IgnoresPlace (select : Terminal → Option α) : Prop :=
  ∀ (k : Nat) (t : Terminal), select (t.shifted k) = select t

theorem ignoresPlace_number? : IgnoresPlace number? := fun _ t => by cases t <;> rfl

theorem ignoresPlace_ofKind? (kind : Terminal.Kind) : IgnoresPlace (ofKind? kind) :=
  fun _ t => by cases t <;> rfl

theorem Level.ignoresPlace_select (l : Level) : IgnoresPlace l.select := fun _ t => by
  cases l <;> cases t <;> rfl

namespace Outcome.Shifted

variable {r r' : Outcome α}

theorem ok (a : α) (h : Parser.Shifted k p q) : Outcome.Shifted k (.ok a, p) (.ok a, q) := ⟨rfl, h⟩

theorem error (f : Fault) (h : Parser.Shifted k p q) :
    Outcome.Shifted (α := α) k (.error f, p) (.error (f.shifted k), q) := ⟨rfl, h⟩

/-- Going on with a result leads to the same, if what follows does. -/
theorem andThen {next next' : α → Parser → Outcome β} (h : Outcome.Shifted k r r')
    (hnext : ∀ a p q, r = (.ok a, p) → Parser.Shifted k p q →
      Outcome.Shifted k (next a p) (next' a q)) :
    Outcome.Shifted k (Outcome.andThen r next) (Outcome.andThen r' next') := by
  obtain ⟨f | a, p⟩ := r <;> obtain ⟨r', q⟩ := r' <;> obtain ⟨rfl, hq⟩ := h
  · exact .error f hq
  · exact hnext a p q rfl hq

end Outcome.Shifted

namespace Shifted

theorem current (h : Shifted k p q) : q.current = p.current.shifted k := by
  obtain ⟨ks, hks⟩ := p.exists_stream_eq_cons
  obtain ⟨js, hjs⟩ := q.exists_stream_eq_cons
  rw [Shifted, hks, hjs] at h
  exact (List.cons.inj h).1

theorem atEnd (h : Shifted k p q) : q.atEnd = p.atEnd := by
  rw [Parser.atEnd, h.current]
  exact Terminal.isFinish_shifted k _

theorem next (h : Shifted k p q) (hp : p.atEnd = false) : Shifted k p.next q.next := by
  have hq : q.atEnd = false := h.atEnd.trans hp
  rw [Shifted, stream_eq_cons hp, stream_eq_cons hq] at h
  exact (List.cons.inj h).2

theorem isClear (h : Shifted k p q) (hp : p.IsClear) : q.IsClear := by
  rw [IsClear, h.current]
  exact (congrArg _ (Terminal.shifted_of_error? hp k)).trans hp

theorem error (h : Shifted k p q) {e : LexicalError} (he : p.current.terminal = .error e) :
    q.current.terminal = .error (e.shifted k) := by
  rw [h.current]
  exact congrArg (Terminal.shifted k) he

theorem giveUp (h : Shifted k p q) (kind : ParseError.Kind) :
    Outcome.Shifted (α := α) k (p.giveUp kind) (q.giveUp kind) := by
  rw [Parser.giveUp, Parser.giveUp, h.current, Fault.unexpected_shifted]
  exact .error _ h

/-- The same is read. -/
theorem read {c d : Cursor} (h : Shifted k (start c) (start d)) :
    Outcome.Shifted k (read c) (read d) := by
  rcases (start c).current.terminal.error?_eq_none_or with hc | ⟨e, he⟩
  · rw [read_of_isClear hc, read_of_isClear (h.isClear hc)]
    exact .ok () h
  · rw [read_of_error he, read_of_error (h.error he), h.current]
    exact .error (.parse ⟨.lexicalError, (start c).current, some e⟩) h

/-- **The step lemma**: the same is accepted, further on. -/
theorem accept {select : Terminal → Option α} (hselect : IgnoresPlace select)
    (h : Shifted k p q) : Outcome.Shifted k (p.accept select) (q.accept select) := by
  have hcurrent : select q.current.terminal = select p.current.terminal := by
    rw [h.current]
    exact hselect k _
  rcases p.accept_cases select with
    ⟨hend | hnone, hr⟩ | ⟨a, hp, hs, hc, hr⟩ | ⟨a, e, hp, hs, he, hr⟩
  · have hq : q.accept select = (.ok none, q) := by
      rw [Parser.accept, h.atEnd, hend]
      rfl
    rw [hr, hq]
    exact .ok none h
  · rw [hr, accept_of_none (hcurrent.trans hnone)]
    exact .ok none h
  · have hnext := h.next hp
    rw [hr, accept_of_isClear (h.atEnd.trans hp) (hcurrent.trans hs) (hnext.isClear hc)]
    exact .ok (some a) hnext
  · have hnext := h.next hp
    rw [hr, accept_of_error (h.atEnd.trans hp) (hcurrent.trans hs) (hnext.error he), hnext.current]
    exact .error (.parse ⟨.lexicalError, p.next.current, some e⟩) hnext

/-- The same alternative is taken, further on. -/
theorem choose {select : Terminal → Option α} (hselect : IgnoresPlace select)
    {accepted accepted' : α → Parser → Outcome β} {otherwise otherwise' : Outcome β}
    (h : Shifted k p q) (refused : Outcome.Shifted k otherwise otherwise')
    (taken : ∀ a r s, p.accept select = (.ok (some a), r) → Shifted k r s →
      Outcome.Shifted k (accepted a r) (accepted' a s)) :
    Outcome.Shifted k (p.choose select accepted otherwise)
      (q.choose select accepted' otherwise') := by
  refine (h.accept hselect).andThen fun a? r s hr hs => ?_
  cases a? with
  | none => exact refused
  | some a => exact taken a r s hr hs

/-- **The run lemma**: the same is read, further on. -/
theorem run (h : Shifted k p q) (g : Goal) : Outcome.Shifted k (p.run g) (q.run g) := by
  induction g, p using run_induction generalizing q with
  | goal l p hop htail =>
    rw [run_goal, run_goal]
    exact (hop h).andThen fun left r s hr hs => htail left r (remaining_le_of_run hr) hs
  | tail l left p hop htail =>
    rw [run_tail, run_tail]
    refine h.choose l.ignoresPlace_select (.ok left h) fun o r s hr hs => ?_
    have hlt := remaining_accept_lt hr
    exact (hop r hlt hs).andThen fun right r' s' hr' hs' =>
      htail _ r' (Nat.lt_of_le_of_lt (remaining_le_of_run hr') hlt) hs'
  | signed p hsigned hprimary =>
    rw [run_signed, run_signed]
    refine h.choose Level.additive.ignoresPlace_select (hprimary h) fun o r s hr hs => ?_
    unfold Operator.asSign
    cases o.sign? with
    | none => exact .error (.assertion (.noSign o)) hs
    | some sign =>
      exact (hsigned r (remaining_accept_lt hr) hs).andThen fun e r' s' _ hs' => .ok _ hs'
  | primary p hsum =>
    rw [run_primary, run_primary]
    refine h.choose ignoresPlace_number? ?_ fun x r s _ hs => .ok _ hs
    refine h.choose (ignoresPlace_ofKind? _) (h.giveUp _) fun _ r s hr hs => ?_
    refine (hsum r (remaining_accept_lt hr) hs).andThen fun e r' s' _ hs' => ?_
    exact hs'.choose (ignoresPlace_ofKind? _) (hs'.giveUp _) fun _ r'' s'' _ hs'' => .ok _ hs''

/-- **Parsing looks at nothing but the tokens in front of the parser.** Where they are the same, `k`
characters further on, parsing gives the same tree, or the same fault further on. -/
theorem expression (h : Shifted k p q) : Outcome.Shifted k p.expression q.expression := by
  have hexpression : ∀ p : Parser, p.expression =
      Outcome.andThen p.sum fun e r => if r.atEnd then (.ok e, r) else r.giveUp .expectedEnd := by
    intro p
    unfold Parser.expression
    obtain ⟨f | e, r⟩ := p.sum <;> rfl
  rw [hexpression, hexpression]
  refine (h.run .sum).andThen fun e r s _ hs => ?_
  rw [hs.atEnd]
  cases r.atEnd with
  | true => exact .ok e hs
  | false => exact hs.giveUp .expectedEnd

end Shifted

end Parser

end Reckoner
