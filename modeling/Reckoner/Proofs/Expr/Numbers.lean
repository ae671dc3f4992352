import Reckoner.Proofs.Expr.Grammar
import Reckoner.Proofs.Token.Lexeme

/-!
# The numbers of parsed trees

A token of a number is a rounded decimal without a sign, so no number at a leaf of a parsed tree has
its sign bit set, and none is a NaN (`Expr.leaves_of_parse`). An infinity can be among them: the
literal of a large number overflows.
-/

namespace Reckoner

namespace Double

/-- A number without a sign, and no NaN. -/
structure IsUnsigned (x : Double) : Prop where
  not_isSignSet : x.isSignSet = false
  ne_nan : ∀ p, x ≠ .nan p

theorem same_self (x : Double) : x.same x = true := by
  cases x <;> simp [same]

theorem isSignSet_ofOrdinal (negative : Bool) (a : Nat) :
    (ofOrdinal negative a).isSignSet = negative := by
  unfold ofOrdinal
  split <;> rfl

end Double

namespace Cursor

/-- The token of a number is a rounded decimal. -/
theorem exists_decimal_of_token {start : Nat} {first : CodePoint} {t : Text} {x : Double}
    (h : (token start first t).1.terminal = .number x) :
    ∃ d : Decimal, x = d.toDouble false := by
  have hd := isDigit_of_token h
  rw [token_of_isDigit hd] at h
  obtain ⟨l, -, hx⟩ := exists_literal_of_number hd h
  exact ⟨l.numeral.decimal, hx⟩

/-- The numbers among the tokens are rounded decimals. -/
theorem exists_decimal_of_mem {c : Cursor} {k : Token} {x : Double} (hk : k ∈ c.tokens)
    (hx : k.terminal = .number x) : ∃ d : Decimal, x = d.toDouble false := by
  have hnext : ∀ c : Cursor, c.next.1.terminal = .number x →
      ∃ d : Decimal, x = d.toDouble false := by
    intro c hc
    rcases c.next_cases with ⟨-, -, -, hfinish⟩ | ⟨blanks, first, t, -, -, -, htoken⟩
    · rw [hfinish] at hc
      cases hc
    · rw [htoken] at hc
      exact exists_decimal_of_token hc
  obtain ⟨n, -, htokens, -⟩ := c.exists_tokens_eq_map
  rw [htokens, List.mem_map] at hk
  obtain ⟨i, -, rfl⟩ := hk
  exact hnext _ hx

end Cursor

namespace Expr

/-- **The numbers of a parsed tree** have no sign bit set, and none is a NaN. -/
theorem leaves_of_parse {s : Text} {e : Expr} (h : parse s = .ok e) :
    ∀ x ∈ e.leaves, x.IsUnsigned := by
  intro x hx
  obtain ⟨hterminals, -⟩ := parse_eq_ok_iff.mp h
  have hmem : Terminal.number x ∈ s.terminals := by
    rw [leaves_eq_filterMap, List.mem_filterMap] at hx
    obtain ⟨k, hk, hx⟩ := hx
    cases k with
    | number y =>
      obtain rfl : y = x := Option.some.inj hx
      rw [hterminals]
      exact List.mem_append_left _ hk
    | _ => cases hx
  obtain ⟨k, hk, hx⟩ := List.mem_map.mp hmem
  obtain ⟨d, rfl⟩ := Cursor.exists_decimal_of_mem hk hx
  exact ⟨Double.isSignSet_ofOrdinal false _, fun p => Double.ofOrdinal_ne_nan false _ p⟩

end Expr

end Reckoner
