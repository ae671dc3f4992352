import Reckoner.Parser.Basic

/-!
# The grammar's rules

```
expression           := addition-level EOF
addition-level       := multiplication-level ( ('+'|'-') multiplication-level )*
multiplication-level := prefix-level ( ('*'|'/') prefix-level )*
prefix-level         := ('+'|'-') prefix-level | primary
primary              := NUMBER | '(' addition-level ')'
```

`Parser.derive` follows these rules with one token of lookahead. A repetition is a goal of its
own, which holds the tree built so far, so that operators of one level associate to the left.

The recursion ends because every call comes after a token was accepted, or is for a goal of lower
rank: the measure is what is left to read first and the rank of the goal second.
-/

namespace Reckoner.Parser

/-! ### Terminals that the rules look for -/

/-- The additive operator in a terminal. -/
def additive? : Terminal → Option Operator
  | .operator o => if o.isAdditive then some o else none
  | _ => none

/-- The multiplicative operator in a terminal. -/
def multiplicative? : Terminal → Option Operator
  | .operator o => if o.isMultiplicative then some o else none
  | _ => none

/-- The value of a number. -/
def number? : Terminal → Option Double
  | .number x => some x
  | _ => none

/-- A terminal of this kind. -/
def ofKind? (k : Terminal.Kind) (t : Terminal) : Option Unit :=
  if t.kind = k then some () else none

/-! ### Outcomes that read no more than there is -/

/-- An outcome that leaves at most `n` to read. -/
abbrev Bounded (α : Type) (n : Nat) := { r : Outcome α // r.2.remaining ≤ n }

namespace Bounded

variable {α β : Type} {n : Nat}

/-- A result that leaves the parser as it is. -/
def done (a : α) (p : Parser) (h : p.remaining ≤ n) : Bounded α n := ⟨(.ok a, p), h⟩

/-- Giving up at the current token. -/
def fail (kind : ParseError.Kind) (p : Parser) (h : p.remaining ≤ n) : Bounded α n :=
  ⟨(.error (.unexpected kind p.current), p), h⟩

/-- A bound may be raised. -/
def weaken {m : Nat} (r : Bounded α m) (h : m ≤ n) : Bounded α n := ⟨r.1, Nat.le_trans r.2 h⟩

/-- Go on with the result of a step, if it has one. -/
def andThen (r : Bounded α n) (next : α → (q : Parser) → q.remaining ≤ n → Bounded β n) :
    Bounded β n :=
  match r with
  | ⟨(.ok a, q), h⟩ => next a q h
  | ⟨(.error f, q), h⟩ => ⟨(.error f, q), h⟩

/-- Accept a token and go on behind it, or go on with another alternative. -/
def ifAccepts (p : Parser) (select : Terminal → Option α) (hp : p.remaining ≤ n)
    (accepted : α → (q : Parser) → q.remaining < p.remaining → Bounded β n)
    (otherwise : Unit → Bounded β n) : Bounded β n :=
  match h : p.accept select with
  | (.ok (some a), q) => accepted a q (remaining_accept_lt h)
  | (.ok none, _) => otherwise ()
  | (.error f, q) =>
    ⟨(.error f, q), by
      have hq := remaining_accept_le select p
      rw [h] at hq
      exact Nat.le_trans hq hp⟩

end Bounded

/-! ### The rules -/

/-- What is to be read: a level of the grammar, or the rest of a repetition behind the tree that
was built so far. -/
inductive Goal where
  | primary
  | signed
  | product
  | productTail (left : Expr)
  | sum
  | sumTail (left : Expr)

/-- A goal may call one of lower rank without consuming anything. -/
def Goal.rank : Goal → Nat
  | primary | productTail _ | sumTail _ => 0
  | signed => 1
  | product => 2
  | sum => 3

/-- Read a goal. -/
def derive (g : Goal) (p : Parser) : Bounded Expr p.remaining :=
  match g with
  | .sum =>
    (derive .product p).andThen fun left q hq => (derive (.sumTail left) q).weaken hq
  | .sumTail left =>
    .ifAccepts p additive? (Nat.le_refl _)
      (fun o q hq =>
        ((derive .product q).andThen fun right r hr =>
          (derive (.sumTail (.binary o left right)) r).weaken hr).weaken (Nat.le_of_lt hq))
      (fun _ => .done left p (Nat.le_refl _))
  | .product =>
    (derive .signed p).andThen fun left q hq => (derive (.productTail left) q).weaken hq
  | .productTail left =>
    .ifAccepts p multiplicative? (Nat.le_refl _)
      (fun o q hq =>
        ((derive .signed q).andThen fun right r hr =>
          (derive (.productTail (.binary o left right)) r).weaken hr).weaken (Nat.le_of_lt hq))
      (fun _ => .done left p (Nat.le_refl _))
  | .signed =>
    .ifAccepts p additive? (Nat.le_refl _)
      (fun o q hq =>
        match o.asSign with
        | .error f => ⟨(.error f, q), Nat.le_of_lt hq⟩
        | .ok s =>
          ((derive .signed q).andThen fun e r hr => .done (.signed s e) r hr).weaken
            (Nat.le_of_lt hq))
      (fun _ => derive .primary p)
  | .primary =>
    .ifAccepts p number? (Nat.le_refl _)
      (fun x q hq => .done (.number x) q (Nat.le_of_lt hq))
      (fun _ =>
        .ifAccepts p (ofKind? .leftParen) (Nat.le_refl _)
          (fun _ q hq =>
            ((derive .sum q).andThen fun e r hr =>
              .ifAccepts r (ofKind? .rightParen) hr
                (fun _ s hs => .done (.grouping e) s (Nat.le_trans (Nat.le_of_lt hs) hr))
                (fun _ => .fail .expectedRightParen r hr)).weaken (Nat.le_of_lt hq))
          (fun _ => .fail .expectedExpression p (Nat.le_refl _)))
termination_by (p.remaining, g.rank)
decreasing_by
  all_goals simp only [Prod.lex_def, Goal.rank, true_and]
  all_goals omega

/-- The outcome of reading a goal. -/
def run (g : Goal) (p : Parser) : Outcome Expr := (derive g p).1

/-- Sums and differences of products. -/
def sum (p : Parser) : Outcome Expr := p.run .sum

/-- Products and quotients of operands with their signs. -/
def product (p : Parser) : Outcome Expr := p.run .product

/-- An operand behind any number of signs. -/
def signed (p : Parser) : Outcome Expr := p.run .signed

/-- A number, or a sum in parentheses. -/
def primary (p : Parser) : Outcome Expr := p.run .primary

/-- A whole expression: a sum, and then the end of the input. -/
def expression (p : Parser) : Outcome Expr :=
  match p.sum with
  | (.ok e, q) =>
    if q.atEnd then (.ok e, q) else (.error (.unexpected .expectedEnd q.current), q)
  | (.error f, q) => (.error f, q)

/-! ### Steps -/

/-- A **step** that can be asked of a parser on its own. -/
inductive Step where
  | expression
  | sum
  | product
  | signed
  | primary
  | advance
  | pull
  /-- Accept a token of this kind. -/
  | accept (kind : Terminal.Kind)
  /-- Accept one of these operators. -/
  | acceptOperator (operators : List Operator)
  /-- Read a token from the parser's cursor behind its back: it does not become current. -/
  | bypass

/-- What a step gives. -/
inductive Answer where
  | nothing
  | tree (e : Expr)
  | token (t : Token)

/-- The operator in a terminal, if it is one of these. -/
def operatorIn? (operators : List Operator) : Terminal → Option Operator
  | .operator o => if operators.contains o then some o else none
  | _ => none

/-- The answer of a step that accepts: the token that was current, if it was accepted. -/
def accepted {α : Type} (p : Parser) : Outcome (Option α) → Outcome Answer
  | (.ok (some _), q) => (.ok (.token p.current), q)
  | (.ok none, q) => (.ok .nothing, q)
  | (.error f, q) => (.error f, q)

/-- Take a step. -/
def step (s : Step) (p : Parser) : Outcome Answer :=
  match s with
  | .expression => p.expression.map (·.map .tree) id
  | .sum => p.sum.map (·.map .tree) id
  | .product => p.product.map (·.map .tree) id
  | .signed => p.signed.map (·.map .tree) id
  | .primary => p.primary.map (·.map .tree) id
  | .advance => p.advance.map (·.map .token) id
  | .pull => p.pull.map (·.map fun _ => .nothing) id
  | .accept kind => p.accepted (p.accept (ofKind? kind))
  | .acceptOperator operators => p.accepted (p.accept (operatorIn? operators))
  | .bypass =>
    let (token, cursor) := p.cursor.next
    (.ok (.token token), { p with cursor })

end Reckoner.Parser
