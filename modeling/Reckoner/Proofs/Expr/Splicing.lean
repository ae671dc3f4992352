import Reckoner.Proofs.Expr.Grammar
import Reckoner.Proofs.Token.Relocation

/-!
# Texts of expressions within texts

Where a text that parses stands within a longer text, it keeps its terminals, provided that what
follows it does not go on with its last number (`Expr.lexes_of_parse`). A parenthesis does not, and
neither does an operator: a sign goes on with a number behind the letter of an exponent only, and
there a number of a text that parses does not end.

So texts can be spliced. Between parentheses a text keeps its tree. Without them trees may be built
in another way, but they are rendered to the renderings of the parts, joined.

Main statement: `Expr.parse_spliced`.
-/

namespace Reckoner

/-- A text between parentheses. -/
def Text.parenthesized (t : Text) : Text := .scalar '(' :: (t ++ [.scalar ')'])

/-! ### What stops a complete number -/

/-- Nothing at the beginning of a text goes on with a number at whose end no digit is missing. -/
def Text.StopsLiteral (r : Text) : Prop :=
  ∀ c ∈ r.head?, ∀ s : Stage, s.missing? = none → s.next? c.digitClass = none

namespace Text.StopsLiteral

theorem nil : StopsLiteral [] := nofun

theorem symbol (o : Operator) (r : Text) : StopsLiteral (.scalar o.symbol :: r) := by
  rintro _ ⟨⟩ s hs
  cases o <;> cases s <;> first | rfl | cases hs

theorem rightParen (r : Text) : StopsLiteral (.scalar ')' :: r) := by
  rintro _ ⟨⟩ s -
  cases s <;> rfl

end Text.StopsLiteral

/-! ### Texts that parse -/

namespace Expr

variable {s r : Text} {e : Expr}

/-- **A text that parses keeps its terminals** in front of what does not go on with a complete
number. -/
theorem lexes_of_parse (h : parse s = .ok e) (hr : r.StopsLiteral) : Lexes s e.terminals r := by
  intro start p start'
  obtain ⟨hterminals, -⟩ := parse_eq_ok_iff.mp h
  obtain ⟨ks, stage, -, htokens, hstage, hmore⟩ :=
    (Cursor.mk start p s).exists_tokens_extended_of_stage
  have hks : ks.map (·.terminal) = e.terminals := by
    -- the terminals of a tree are no errors, so they are the same at every place
    have hclear : e.terminals.map (Terminal.shifted p) = e.terminals := by
      refine (List.map_congr_left fun k hk => ?_).trans (List.map_id _)
      exact Terminal.shifted_of_error? (e.not_mem_terminals hk).1 p
    have hends : ks.map (·.terminal) ++ [.finish] = e.terminals ++ [.finish] :=
      calc ks.map (·.terminal) ++ [.finish]
          = (Cursor.mk start p s).tokens.map (·.terminal) := by rw [htokens, List.map_append]; rfl
        _ = s.terminals.map (Terminal.shifted p) := Cursor.terminals_mk_eq_map start p s
        _ = e.terminals ++ [.finish] := by rw [hterminals, List.map_append, hclear]; rfl
    exact List.append_cancel_right hends
  refine ⟨ks, hks, hmore r (fun c hc => hr c hc stage (hstage fun k hk => ?_)) start'⟩
  have hmem : k.terminal ∈ e.terminals := hks ▸ List.mem_map_of_mem hk
  exact (e.not_mem_terminals hmem).1

/-- Between parentheses, the terminals are those of a pair of parentheses around the tree. -/
theorem lexes_parenthesized (h : parse s = .ok e) :
    Lexes s.parenthesized (grouping e).terminals r :=
  .cons .leftParen (.append (lexes_of_parse h (.rightParen r)) .rightParen)

variable {a b : Text} {A B : Expr}

/-- Two texts with an operator between them have the terminals of an operation. -/
theorem lexes_operation {o : Operator} (ha : Lexes a A.terminals (.scalar o.symbol :: b))
    (hb : Lexes b B.terminals []) :
    Lexes (a ++ .scalar o.symbol :: b) (binary o A B).terminals [] := by
  refine .append ?_ (.cons (.symbol o) hb)
  rwa [List.append_nil]

/-- **Texts of expressions can be spliced.** Between parentheses they keep their trees, behind a sign
and on both sides of an operator. Without parentheses what is spliced parses as well, and is
rendered to the renderings of the parts, joined. -/
theorem parse_spliced (ha : parse a = .ok A) (hb : parse b = .ok B) (o : Operator) (q : Sign) :
    parse a.parenthesized = .ok (grouping A) ∧
    parse (a.parenthesized ++ .scalar o.symbol :: b.parenthesized) =
      .ok (binary o (grouping A) (grouping B)) ∧
    parse (.scalar q.symbol :: a.parenthesized) = .ok (signed q (grouping A)) ∧
    (∃ E, parse (a ++ .scalar o.symbol :: b) = .ok E ∧
      E.description = A.description ++ Text.ofChars [' ', o.symbol, ' '] ++ B.description) ∧
    ∃ E, parse (.scalar q.symbol :: a) = .ok E ∧
      E.description = .scalar q.symbol :: A.description := by
  obtain ⟨-, hA⟩ := parse_eq_ok_iff.mp ha
  obtain ⟨-, hB⟩ := parse_eq_ok_iff.mp hb
  refine ⟨?_, ?_, ?_, ?_, ?_⟩
  · exact parse_of_lexes (lexes_parenthesized ha) hA
  · refine parse_of_lexes (lexes_operation (lexes_parenthesized ha) (lexes_parenthesized hb)) ?_
    cases o <;> simp [isCanonical, isSum, isOperation, Operator.isAdditive, hA, hB]
  · exact parse_of_lexes (.cons (.sign q) (lexes_parenthesized ha)) hA
  · have hlexes : Lexes (a ++ .scalar o.symbol :: b) (binary o A B).terminals [] :=
      lexes_operation (lexes_of_parse ha (.symbol o b)) (lexes_of_parse hb .nil)
    obtain ⟨E, hE, hterminals⟩ := exists_parse_of_terminals hlexes.terminals_eq
    exact ⟨E, hE, description_congr hterminals⟩
  · have hlexes : Lexes (.scalar q.symbol :: a) (signed q A).terminals [] :=
      .cons (.sign q) (lexes_of_parse ha .nil)
    obtain ⟨E, hE, hterminals⟩ := exists_parse_of_terminals hlexes.terminals_eq
    exact ⟨E, hE, description_congr hterminals⟩

/-- The quotient takes the second number away from the difference, and is still rendered behind it. -/
theorem parse_spliced_quotient :
    parse "(0.0 - 0.0)" =
      .ok (grouping (binary .subtraction (number (.zero false)) (number (.zero false)))) ∧
    ∃ E, parse "0.0 - 0.0/0.0" = .ok E ∧ E.description = "0.0 - 0.0 / 0.0" := by
  have ha : parse "0.0 - 0.0" =
      .ok (binary .subtraction (number (.zero false)) (number (.zero false))) :=
    parse_description_eq_self
      (e := binary .subtraction (number (.zero false)) (number (.zero false)))
      rfl (by decide) (by decide)
  have hb : parse "0.0" = .ok (number (.zero false)) :=
    parse_description_eq_self (e := number (.zero false)) rfl (by decide) (by decide)
  obtain ⟨hgrouping, -, -, hquotient, -⟩ := parse_spliced ha hb .division .minus
  exact ⟨hgrouping, hquotient⟩

end Expr

end Reckoner
