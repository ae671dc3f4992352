import Reckoner.Proofs.Parser.Soundness

/-!
# The recognizer

Whether a sequence of tokens is an expression can be seen without building a tree, by a machine
that knows only whether an operand is expected and how many parentheses are open. It looks at one
token after the other and stops at the first one that cannot continue an expression
(`Recognizer.judge`).

Main statement: the rules and the recognizer agree wherever reading begins and whatever is open
around it (`agrees_run`). A reading that succeeds takes the recognizer from where it began to an
operand completed, and one that fails does so at the token, and for the reason, for which the
recognizer stops.
-/

namespace Reckoner

namespace Recognizer

/-- What the recognizer knows: whether an operand is expected or was just completed, and how many
parentheses are open. -/
inductive State where
  | operand (depth : Nat)
  | completed (depth : Nat)
deriving DecidableEq

/-- What the recognizer does at a terminal. -/
inductive Move where
  | go (s : State)
  | accept
  | stop (kind : ParseError.Kind)
deriving DecidableEq

/-- The move in a state at a terminal. -/
def State.move : State → Terminal → Move
  | _, .error _ => .stop .lexicalError
  | operand d, .operator o => if o.isAdditive then .go (operand d) else .stop .expectedExpression
  | operand d, .leftParen => .go (operand (d + 1))
  | operand d, .number _ => .go (completed d)
  | operand _, _ => .stop .expectedExpression
  | completed d, .operator _ => .go (operand d)
  | completed (d + 1), .rightParen => .go (completed d)
  | completed (_ + 1), _ => .stop .expectedRightParen
  | completed 0, .finish => .accept
  | completed 0, _ => .stop .expectedEnd

/-- What the recognizer has found out: it is still running, it has accepted, or it has stopped at
a token for a reason. -/
inductive Verdict where
  | running (s : State)
  | accepted
  | stopped (kind : ParseError.Kind) (token : Token)
deriving DecidableEq

/-- Run from a state over tokens. -/
def judge (s : State) : List Token → Verdict
  | [] => .running s
  | k :: ks =>
    match s.move k.terminal with
    | .go s' => judge s' ks
    | .accept => .accepted
    | .stop kind => .stopped kind k

@[simp] theorem State.move_error (s : State) (e : LexicalError) :
    s.move (.error e) = .stop .lexicalError := by
  cases s <;> rfl

/-! ### Sequences of terminals -/

/-- The state behind a sequence of terminals, if the recognizer goes on at each of them. -/
def State.after? (s : State) : List Terminal → Option State
  | [] => some s
  | k :: ks =>
    match s.move k with
    | .go s' => s'.after? ks
    | .accept => none
    | .stop _ => none

theorem State.after?_cons {s s' : State} {k : Terminal} (h : s.move k = .go s')
    (ks : List Terminal) : s.after? (k :: ks) = s'.after? ks := by
  rw [after?, h]

theorem State.after?_append (s : State) (ks js : List Terminal) :
    s.after? (ks ++ js) = (s.after? ks).bind fun s' => s'.after? js := by
  induction ks generalizing s with
  | nil => rfl
  | cons k ks ih =>
    rw [List.cons_append, after?, after?]
    cases s.move k with
    | go s' => exact ih s'
    | accept => rfl
    | stop => rfl

/-- Tokens at which the recognizer goes on decide nothing. -/
theorem judge_append {s s' : State} {ks : List Token}
    (h : s.after? (ks.map (·.terminal)) = some s') (js : List Token) :
    judge s (ks ++ js) = judge s' js := by
  induction ks generalizing s with
  | nil =>
    cases h
    rfl
  | cons k ks ih =>
    rw [List.map_cons, State.after?] at h
    rw [List.cons_append, judge]
    cases hm : s.move k.terminal with
    | go s₁ =>
      rw [hm] at h
      exact ih h
    | accept =>
      rw [hm] at h
      cases h
    | stop =>
      rw [hm] at h
      cases h

/-- Where the recognizer stops, it has gone on at all tokens before. -/
theorem exists_append_of_stopped {s : State} {ks : List Token} {kind : ParseError.Kind}
    {k : Token} (h : judge s ks = .stopped kind k) :
    ∃ js is s', ks = js ++ k :: is ∧ s.after? (js.map (·.terminal)) = some s' ∧
      s'.move k.terminal = .stop kind := by
  induction ks generalizing s with
  | nil => cases h
  | cons j ks ih =>
    rw [judge] at h
    cases hm : s.move j.terminal with
    | go s₁ =>
      rw [hm] at h
      obtain ⟨js, is, s', rfl, hafter, hstop⟩ := ih h
      exact ⟨j :: js, is, s', rfl, (State.after?_cons hm _).trans hafter, hstop⟩
    | accept =>
      rw [hm] at h
      cases h
    | stop =>
      rw [hm] at h
      cases h
      exact ⟨[], ks, s, rfl, rfl, hm⟩

/-- The recognizer goes on at no lexical error, and not at the end. -/
theorem State.error?_of_move {s s' : State} {k : Terminal} (h : s.move k = .go s') :
    k.error? = none ∧ k.isFinish = false := by
  cases k with
  | error e =>
    rw [move_error] at h
    cases h
  | finish =>
    cases s with
    | operand d => cases h
    | completed d => cases d <;> cases h
  | _ => exact ⟨rfl, rfl⟩

theorem State.error?_of_after? {s s' : State} {ks : List Terminal}
    (h : s.after? ks = some s') : ∀ k ∈ ks, k.error? = none ∧ k.isFinish = false := by
  induction ks generalizing s with
  | nil => nofun
  | cons k ks ih =>
    cases hm : s.move k with
    | go s₁ =>
      rw [after?_cons hm] at h
      exact List.forall_mem_cons.mpr ⟨error?_of_move hm, ih h⟩
    | _ =>
      rw [after?, hm] at h
      cases h

/-- **The terminals of any tree complete an operand**, whatever its shape. -/
theorem after?_terminals (e : Expr) (d : Nat) :
    (State.operand d).after? e.terminals = some (.completed d) := by
  induction e generalizing d with
  | number x => rfl
  | signed s e ih =>
    have hmove : (State.operand d).move (.operator s.operator) = .go (.operand d) :=
      if_pos s.isAdditive_operator
    rw [Expr.terminals, State.after?_cons hmove, ih]
  | binary o l r ihl ihr =>
    have hmove : (State.completed d).move (.operator o) = .go (.operand d) := by
      cases d <;> rfl
    rw [Expr.terminals, State.after?_append, ihl, Option.bind_some, State.after?_cons hmove, ihr]
  | grouping e ih =>
    have hopen : (State.operand d).move .leftParen = .go (.operand (d + 1)) := rfl
    rw [Expr.terminals, State.after?_cons hopen, State.after?_append, ih]
    rfl
  | parsed e ih => exact ih d

/-- The recognizer goes on along every beginning of such a sequence. -/
theorem exists_after?_of_prefix {s s' : State} {js ks : List Terminal} (h : js <+: ks)
    (hks : s.after? ks = some s') : ∃ s₁, s.after? js = some s₁ := by
  obtain ⟨is, rfl⟩ := h
  rw [State.after?_append] at hks
  obtain ⟨s₁, hs₁, -⟩ := Option.bind_eq_some_iff.mp hks
  exact ⟨s₁, hs₁⟩

end Recognizer

open Recognizer

namespace Parser

variable {p q : Parser} {s s' : State} {kind : ParseError.Kind}

theorem judge_of_go (hp : p.atEnd = false) (h : s.move p.current.terminal = .go s') :
    judge s p.stream = judge s' p.next.stream := by
  rw [stream_eq_cons hp, judge, h]

theorem judge_of_stop (h : s.move p.current.terminal = .stop kind) :
    judge s p.stream = .stopped kind p.current := by
  obtain ⟨ks, hks⟩ := p.exists_stream_eq_cons
  rw [hks, judge, h]

/-- An outcome **agrees** with verdicts, one for each number of parentheses that are open around
it: a result takes the recognizer to an operand completed behind it, with `n` more parentheses
open, and a fault is what the recognizer stops with. -/
def Agrees (n : Nat) (verdict : Nat → Verdict) : Outcome Expr → Prop
  | (.ok _, q) => q.IsClear ∧ ∀ d, verdict d = judge (.completed (d + n)) q.stream
  | (.error f, q) => ∃ kind, f = .parse ⟨kind, q.current, q.current.terminal.error?⟩ ∧
      ∀ d, verdict d = .stopped kind q.current

namespace Agrees

variable {n m : Nat} {verdict verdict' : Nat → Verdict} {r : Outcome Expr}

theorem congr (h : ∀ d, verdict d = verdict' d) (hr : Agrees n verdict' r) :
    Agrees n verdict r := by
  rwa [funext h]

/-- Agreement with one more parenthesis open. -/
theorem shift (h : Agrees 0 verdict r) : Agrees 1 (fun d => verdict (d + 1)) r := by
  obtain ⟨f | e, q⟩ := r
  · obtain ⟨kind, hf, hstop⟩ := h
    exact ⟨kind, hf, fun d => hstop (d + 1)⟩
  · exact ⟨h.1, fun d => h.2 (d + 1)⟩

theorem andThen {next : Expr → Parser → Outcome Expr} (h : Agrees n verdict r)
    (hnext : ∀ e q, r = (.ok e, q) → q.IsClear →
      Agrees m (fun d => judge (.completed (d + n)) q.stream) (next e q)) :
    Agrees m verdict (Outcome.andThen r next) := by
  obtain ⟨f | e, q⟩ := r
  · exact h
  · exact (hnext e q rfl h.1).congr h.2

/-- Giving up agrees with stopping. -/
theorem giveUp {s : Nat → State} (hp : p.IsClear)
    (hstop : ∀ d, (s d).move p.current.terminal = .stop kind) (hk : kind ≠ .lexicalError) :
    Agrees n (fun d => judge (s d) p.stream) (p.giveUp kind) := by
  refine ⟨kind, ?_, fun d => judge_of_stop (hstop d)⟩
  rw [show p.current.terminal.error? = none from hp]
  cases kind <;> first | rfl | exact absurd rfl hk

/-- An alternative agrees when the recognizer goes on at every token that is accepted, and what
follows agrees. A lexical error behind the token stops both. -/
theorem choose {α : Type} {select : Terminal → Option α} {s : Nat → State}
    {accepted : α → Parser → Outcome Expr} {otherwise : Outcome Expr}
    (hend : select .finish = none)
    (hgo : ∀ a, select p.current.terminal = some a →
      ∃ s' : Nat → State, ∀ d, (s d).move p.current.terminal = .go (s' d))
    (refused : select p.current.terminal = none →
      Agrees n (fun d => judge (s d) p.stream) otherwise)
    (taken : ∀ a, p.atEnd = false → select p.current.terminal = some a → p.next.IsClear →
      Agrees n (fun d => judge (s d) p.stream) (accepted a p.next)) :
    Agrees n (fun d => judge (s d) p.stream) (p.choose select accepted otherwise) := by
  rcases choose_cases p accepted otherwise hend with
    ⟨hs, hr⟩ | ⟨a, hp, hs, hc, hr⟩ | ⟨a, e, hp, hs, he, hr⟩
  · rw [hr]
    exact refused hs
  · rw [hr]
    exact taken a hp hs hc
  · rw [hr]
    -- the recognizer goes on to the token behind, and stops there as the parser does
    obtain ⟨s', hs'⟩ := hgo a hs
    refine ⟨.lexicalError, by rw [he]; rfl, fun d => ?_⟩
    exact (judge_of_go hp (hs' d)).trans (judge_of_stop (by rw [he, State.move_error]))

end Agrees

/-! ### The rules agree with the recognizer -/

/-- The state in which the recognizer is when a goal is to be read. -/
def Goal.state : Goal → Nat → State
  | sumTail _, d | productTail _, d => .completed d
  | _, d => .operand d

/-- Where no operand begins, the recognizer stops. -/
theorem move_operand_eq_stop {k : Terminal} (hk : k.error? = none) (ha : additive? k = none)
    (hn : number? k = none) (hl : ofKind? .leftParen k = none) (d : Nat) :
    (State.operand d).move k = .stop .expectedExpression := by
  cases k with
  | operator o => cases o <;> first | rfl | cases ha
  | number => cases hn
  | leftParen => cases hl
  | error => cases hk
  | _ => rfl

/-- Behind an operand with a parenthesis open, the recognizer goes on only at an operator and at a
closing parenthesis. -/
theorem move_completed_eq_stop {k : Terminal} (hk : k.error? = none)
    (ho : Goal.sum.continues k = false) (hr : ofKind? .rightParen k = none) (d : Nat) :
    (State.completed (d + 1)).move k = .stop .expectedRightParen := by
  cases k with
  | operator => cases ho
  | rightParen => cases hr
  | error => cases hk
  | _ => rfl

/-- **The rules agree with the recognizer** for every goal and from every clear parser. A primary
alone is read only where no sign begins. -/
theorem agrees_run (g : Goal) (p : Parser) (hp : p.IsClear)
    (hg : g = .primary → additive? p.current.terminal = none) :
    Agrees 0 (fun d => judge (g.state d) p.stream) (p.run g) := by
  induction g, p using run_induction with
  | goal l p hop htail =>
    have hstate : l.goal.state = l.operand.state := by cases l <;> rfl
    have htailState : ∀ left, (l.tail left).state = .completed := by cases l <;> intro <;> rfl
    rw [run_goal, hstate]
    refine (hop hp (by cases l <;> nofun)).andThen fun left q hleft hq => ?_
    have h := htail left q (remaining_le_of_run hleft) hq (by cases l <;> nofun)
    rwa [htailState] at h
  | tail l left p hop htail =>
    have hstate : l.operand.state = .operand := by cases l <;> rfl
    have htailState : ∀ left, (l.tail left).state = .completed := by cases l <;> intro <;> rfl
    have hgo : ∀ o, l.select p.current.terminal = some o →
        ∀ d, (State.completed d).move p.current.terminal = .go (.operand d) := by
      intro o hs d
      rw [(l.select_eq_some.mp hs).1]
      cases d <;> rfl
    rw [run_tail, htailState]
    refine .choose l.select_finish (fun o hs => ⟨_, hgo o hs⟩) (fun _ => ⟨hp, fun _ => rfl⟩)
      fun o hend hs hc => .congr (fun d => judge_of_go hend (hgo o hs d)) ?_
    have hlt := remaining_next_lt hend
    have h := hop _ hlt hc (by cases l <;> nofun)
    rw [hstate] at h
    refine h.andThen fun right q hright hq => ?_
    have h' := htail (.binary o left right) q
      (Nat.lt_of_le_of_lt (remaining_le_of_run hright) hlt) hq (by cases l <;> nofun)
    rwa [htailState] at h'
  | signed p hsigned hprimary =>
    have hgo : ∀ o, additive? p.current.terminal = some o →
        ∀ d, (State.operand d).move p.current.terminal = .go (.operand d) := by
      intro o hs d
      obtain ⟨hk, ho⟩ := Level.additive.select_eq_some.mp hs
      rw [hk]
      exact if_pos ho
    rw [run_signed]
    refine .choose rfl (fun o hs => ⟨_, hgo o hs⟩) (fun hs => hprimary hp fun _ => hs)
      fun o hend hs hc => .congr (fun d => judge_of_go hend (hgo o hs d)) ?_
    obtain ⟨sign, rfl⟩ := Operator.exists_sign (Level.additive.select_eq_some.mp hs).2
    rw [Sign.asSign_operator]
    exact (hsigned _ (remaining_next_lt hend) hc nofun).andThen fun e q _ hq => ⟨hq, fun _ => rfl⟩
  | primary p hsum =>
    have hnumber : ∀ x, number? p.current.terminal = some x →
        ∀ d, (State.operand d).move p.current.terminal = .go (.completed d) := by
      intro x hs d
      rw [eq_number_of_number? hs]
      rfl
    have hopen : ∀ u, ofKind? .leftParen p.current.terminal = some u →
        ∀ d, (State.operand d).move p.current.terminal = .go (.operand (d + 1)) := by
      intro u hs d
      rw [eq_leftParen_of_ofKind? hs]
      rfl
    rw [run_primary]
    refine .choose rfl (fun x hs => ⟨_, hnumber x hs⟩) (fun hn => ?_)
      fun x hend hs hc => ⟨hc, fun d => judge_of_go hend (hnumber x hs d)⟩
    refine .choose rfl (fun u hs => ⟨_, hopen u hs⟩)
      (fun hl => .giveUp hp (move_operand_eq_stop hp (hg rfl) hn hl) nofun)
      fun u hend hs hc => .congr (fun d => judge_of_go hend (hopen u hs d)) ?_
    -- inside the parentheses one more is open, and the sum stops before what closes it
    refine (hsum _ (remaining_next_lt hend) hc nofun).shift.andThen fun e q he hq => ?_
    have hstop := (derives_of_run (g := .sum) trivial he).stopped
    have hclose : ∀ u, ofKind? .rightParen q.current.terminal = some u →
        ∀ d, (State.completed (d + 1)).move q.current.terminal = .go (.completed d) := by
      intro u hs d
      rw [eq_rightParen_of_ofKind? hs]
      rfl
    exact .choose rfl (fun u hs => ⟨_, hclose u hs⟩)
      (fun hr => .giveUp hq (move_completed_eq_stop hq hstop hr) nofun)
      fun u hend hs hc => ⟨hc, fun d => judge_of_go hend (hclose u hs d)⟩

end Parser

end Reckoner
