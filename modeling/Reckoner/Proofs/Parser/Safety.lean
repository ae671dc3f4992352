import Reckoner.Expr.Parse
import Reckoner.Proofs.Double.Spelling
import Reckoner.Proofs.Parser.Run
import Reckoner.Proofs.Token.Lexeme

/-!
# Faults of a parser

A step of a parser can end with a parse error or with a failed assertion. Main statement: bad input
is always reported by a parse error, at the token at which the parser was left, and the only
assertion that can fail is that of an advance at the end of the input
(`Parser.faults_of_run_report`).

What makes a fault a report is stated once (`Parser.Reports`); that the rules have no other faults
follows from two lemmas, one for going on with a result and one for alternatives
(`Parser.Reported.andThen`, `Parser.Reported.choose`).
-/

namespace Reckoner

/-- Whoever is told that a token is no lexical error is told what was expected instead. -/
theorem ParseError.Kind.expected_ne_nil {kind : ParseError.Kind} (h : kind ≠ .lexicalError) :
    kind.expected ≠ [] := by
  cases kind with
  | lexicalError => exact absurd rfl h
  | _ => decide

namespace Parser

/-! ### Reports -/

/-- A fault **reports** the current token of a parser when it is a parse error at that token: the
lexical error that the token is, or that something else was expected there. -/
inductive Reports (p : Parser) : Fault → Prop where
  | lexical {e : LexicalError} (h : p.current.terminal = .error e) :
      Reports p (.parse ⟨.lexicalError, p.current, some e⟩)
  | unexpected {kind : ParseError.Kind} (h : kind ≠ .lexicalError) :
      Reports p (.parse ⟨kind, p.current, none⟩)

theorem reports_unexpected {kind : ParseError.Kind} (p : Parser) (h : kind ≠ .lexicalError) :
    Reports p (.unexpected kind p.current) := by
  have hfault : Fault.unexpected kind p.current = .parse ⟨kind, p.current, none⟩ := by
    cases kind with
    | lexicalError => exact absurd rfl h
    | _ => rfl
  rw [hfault]
  exact .unexpected h

/-- A report is a parse error at the current token. -/
theorem Reports.exists_eq {p : Parser} {f : Fault} (h : Reports p f) :
    ∃ e, f = .parse e ∧ e.token = p.current := by
  cases h with
  | lexical _ => exact ⟨_, rfl, rfl⟩
  | unexpected _ => exact ⟨_, rfl, rfl⟩

/-- An outcome is **reported** when its fault, if it has one, reports the token at which the parser
was left. -/
def Reported {α : Type} (r : Outcome α) : Prop := ∀ f, r.1 = .error f → Reports r.2 f

namespace Reported

variable {α β : Type} {p q : Parser}

theorem ok (a : α) (p : Parser) : Reported ((.ok a, p) : Outcome α) := by
  intro f h
  cases h

theorem error {f : Fault} (h : Reports p f) : Reported ((.error f, p) : Outcome α) := by
  rintro _ ⟨⟩
  exact h

theorem giveUp {kind : ParseError.Kind} (p : Parser) (h : kind ≠ .lexicalError) :
    Reported (p.giveUp kind : Outcome α) := .error (reports_unexpected p h)

theorem read (c : Cursor) : Reported (read c) := by
  rcases (start c).current.terminal.error?_eq_none_or with hc | ⟨e, he⟩
  · rw [read_of_isClear hc]
    exact .ok _ _
  · rw [read_of_error he]
    exact .error (.lexical he)

theorem accept (select : Terminal → Option α) (p : Parser) : Reported (p.accept select) := by
  rcases p.accept_cases select with ⟨-, hr⟩ | ⟨a, -, -, -, hr⟩ | ⟨a, e, -, -, he, hr⟩ <;> rw [hr]
  · exact .ok _ _
  · exact .ok _ _
  · exact .error (.lexical he)

theorem andThen {r : Outcome α} {next : α → Parser → Outcome β} (h : Reported r)
    (hnext : ∀ a q, r = (.ok a, q) → Reported (next a q)) :
    Reported (Outcome.andThen r next) := by
  obtain ⟨f | a, q⟩ := r
  · exact .error (h f rfl)
  · exact hnext a q rfl

/-- An alternative is reported if both of its branches are. -/
theorem choose {select : Terminal → Option α} {accepted : α → Parser → Outcome β}
    {otherwise : Outcome β} (refused : Reported otherwise)
    (taken : ∀ a, p.atEnd = false → select p.current.terminal = some a →
      Reported (accepted a p.next)) :
    Reported (p.choose select accepted otherwise) := by
  refine (accept select p).andThen fun a? q h => ?_
  rcases p.accept_cases select with ⟨-, hr⟩ | ⟨a, hp, hs, -, hr⟩ | ⟨a, e, -, -, -, hr⟩ <;>
    cases h.symm.trans hr
  · exact refused
  · exact taken a hp hs

end Reported

/-- **The rules report all their faults.** The operator in front of an operand is always one that
has a sign. -/
theorem reported_run (g : Goal) (p : Parser) : Reported (p.run g) := by
  induction g, p using run_induction with
  | goal l p hop htail =>
    rw [run_goal]
    exact hop.andThen fun left q h => htail left q (remaining_le_of_run h)
  | tail l left p hop htail =>
    rw [run_tail]
    refine .choose (.ok left p) fun o hp _ => ?_
    have hlt := remaining_next_lt hp
    exact (hop _ hlt).andThen fun right r h =>
      htail _ r (Nat.lt_of_le_of_lt (remaining_le_of_run h) hlt)
  | signed p hsigned hprimary =>
    rw [run_signed]
    refine .choose hprimary fun o hp hs => ?_
    obtain ⟨sign, rfl⟩ := Operator.exists_sign (Level.additive.select_eq_some.mp hs).2
    rw [Sign.asSign_operator]
    exact (hsigned _ (remaining_next_lt hp)).andThen fun e r _ => .ok _ r
  | primary p hsum =>
    rw [run_primary]
    refine .choose ?_ fun x _ _ => .ok _ _
    refine .choose (.giveUp p nofun) fun _ hp _ => ?_
    refine (hsum _ (remaining_next_lt hp)).andThen fun e r _ => ?_
    exact .choose (.giveUp r nofun) fun _ _ _ => .ok _ _

theorem reported_expression (p : Parser) : Reported p.expression := by
  have hsum : Reported p.sum := reported_run .sum p
  unfold expression
  split
  · split
    · exact .ok _ _
    · exact .error (reports_unexpected _ nofun)
  · next heq =>
    rw [heq] at hsum
    exact .error (hsum _ rfl)

/-! ### Steps -/

/-- What becomes of a result does not matter to its faults. -/
theorem Reported.map {α β : Type} {r : Outcome α} (h : Reported r) (f : α → β) :
    Reported (r.map (·.map f) id) := by
  obtain ⟨g | a, q⟩ := r
  · exact .error (h g rfl)
  · exact .ok _ q

theorem Reported.accepted {α : Type} {p : Parser} {r : Outcome (Option α)} (h : Reported r) :
    Reported (p.accepted r) := by
  obtain ⟨g | _ | a, q⟩ := r
  · exact .error (h g rfl)
  · exact .ok _ q
  · exact .ok _ q

/-- **The step lemma**: a step reports its faults, unless it advances at the end. -/
theorem reported_step {step : Step} {p : Parser} (h : step = .advance → p.atEnd = false) :
    Reported (p.step step) := by
  have hgoal : ∀ g, Reported ((p.run g).map (·.map Answer.tree) id) := fun g =>
    (reported_run g p).map _
  cases step with
  | expression => exact p.reported_expression.map _
  | sum => exact hgoal .sum
  | product => exact hgoal .product
  | signed => exact hgoal .signed
  | primary => exact hgoal .primary
  | advance =>
    have hadvance : Reported p.advance := by
      rcases advance_cases (h rfl) with hr | ⟨e, he, hr⟩ <;> rw [hr]
      · exact .ok _ _
      · exact .error (.lexical he)
    exact hadvance.map _
  | pull => exact (Reported.read p.cursor).map _
  | accept kind => exact (Reported.accept _ p).accepted
  | acceptOperator operators => exact (Reported.accept _ p).accepted
  | bypass => exact .ok _ _

/-- A fault of a step is a report, or the step was to advance at the end. -/
theorem reports_or_advanced {step : Step} {f : Fault} {p q : Parser}
    (h : p.step step = (.error f, q)) :
    Reports q f ∨ step = .advance ∧ p.atEnd = true ∧ f = .assertion .advancedPastEnd ∧ q = p := by
  by_cases hstep : step = .advance → p.atEnd = false
  · have hreported := reported_step hstep
    rw [h] at hreported
    exact .inl (hreported f rfl)
  · obtain ⟨rfl, hend⟩ := Classical.not_imp.mp hstep
    have hend : p.atEnd = true := by simpa using hend
    obtain ⟨hf, rfl⟩ := Prod.mk.inj (h.symm.trans (step_advance_of_atEnd hend))
    exact .inr ⟨rfl, hend, Except.error.inj hf, rfl⟩

/-- A report has a message: that of its lexical error, or what was expected. -/
theorem Reports.has_message {p : Parser} {e : ParseError} (h : Reports p (.parse e)) :
    (e.kind = .lexicalError ↔ e.lexical.isSome = true) ∧
      (e.lexical = none → e.kind.expected ≠ []) := by
  cases h with
  | lexical _ => exact ⟨⟨fun _ => rfl, fun _ => rfl⟩, nofun⟩
  | unexpected hkind =>
    exact ⟨⟨fun hk => absurd hk hkind, nofun⟩, fun _ => ParseError.Kind.expected_ne_nil hkind⟩

/-- Making a parser gives the parser, or reports its first token. -/
theorem ofCursor_cases (s : Text) (k : Nat) :
    ofCursor ((Cursor.ofText s).skip k) = .ok (s.parser k) ∨
      ∃ f, ofCursor ((Cursor.ofText s).skip k) = .error f ∧ Reports (s.parser k) f := by
  have h := Reported.read ((Cursor.ofText s).skip k)
  unfold ofCursor Text.parser
  generalize read ((Cursor.ofText s).skip k) = r at h ⊢
  obtain ⟨f | u, p⟩ := r
  · exact .inr ⟨f, rfl, h f rfl⟩
  · exact .inl rfl

/-- The token of a number holds a double that makes a number, and its lexeme is converted to that
double. -/
theorem exists_double_of_number {s : Text} {i : Nat}
    (h : (s.call i).1.terminal.kind = .number) : ∃ x : Double,
      (s.call i).1.report.value = .datum (.double x) ∧
        Expr.ofDatum (.double x) = .ok (.number x) ∧
        ∀ payload, Double.ofText? payload (s.lexeme i) = some x := by
  cases hk : (s.call i).1.terminal with
  | number x =>
    obtain ⟨l, hl, rfl⟩ := Text.exists_literal_of_call hk
    refine ⟨l.value, ?_, rfl, fun payload => ?_⟩
    · rw [Token.report, hk]
      rfl
    · rw [hl]
      exact Double.ofText?_literal payload l
  | _ =>
    rw [hk] at h
    cases h

/-- **Bad input leads to parse errors and to nothing else.** When a parser over a text is made, and
in every step after any run of steps, failed ones included, a fault is a parse error at the token at
which the parser is left. It passes on the lexical error that the token is, or says what was expected
instead. The only failed assertion is that of advancing at the end of the input, which always fails.
Behind this, every token of a number has a value that makes a number, and the text it was read from
is converted to that value. -/
theorem faults_of_run_report (s : Text) (k : Nat) (steps : List Step) :
    (ofCursor ((Cursor.ofText s).skip k) = .ok (s.parser k) ∨
      ∃ f, ofCursor ((Cursor.ofText s).skip k) = .error f ∧ Reports (s.parser k) f) ∧
    (∀ (step : Step) (f : Fault) (q : Parser),
      ((s.parser k).after steps).step step = (.error f, q) →
        Reports q f ∨ step = .advance ∧ ((s.parser k).after steps).atEnd = true ∧
          f = .assertion .advancedPastEnd ∧ q = (s.parser k).after steps) ∧
    (∀ (step : Step) (e : ParseError) (q : Parser),
      ((s.parser k).after steps).step step = (.error (.parse e), q) →
        (e.kind = .lexicalError ↔ e.lexical.isSome = true) ∧
          (e.lexical = none → e.kind.expected ≠ [])) ∧
    (((s.parser k).after steps).atEnd = true →
      ((s.parser k).after steps).step .advance =
        (.error (.assertion .advancedPastEnd), (s.parser k).after steps)) ∧
    ∀ i, (s.call i).1.terminal.kind = .number → ∃ x : Double,
      (s.call i).1.report.value = .datum (.double x) ∧
        Expr.ofDatum (.double x) = .ok (.number x) ∧
        ∀ payload, Double.ofText? payload (s.lexeme i) = some x := by
  refine ⟨ofCursor_cases s k, fun step f q => reports_or_advanced, ?_, step_advance_of_atEnd,
    fun i => exists_double_of_number⟩
  intro step e q h
  rcases reports_or_advanced h with hreport | ⟨-, -, hf, -⟩
  · exact hreport.has_message
  · cases hf

end Parser

end Reckoner
