import Reckoner.Proofs.Codec.RoundTrip
import Reckoner.Proofs.Expr.Distinctness

/-!
# The description is a complete invariant

Two texts that parse give equal expressions exactly if their expressions have the same description,
and exactly if they are written as the same document (`Expr.same_iff_description`). It does not
matter that some of these documents stand for no expression: what a description shows determines the
tree all the same (`Expr.eq_of_description`), and a document shows whether it holds a number or a
string (`Expr.parse_of_dumps`).
-/

namespace Reckoner.Expr

variable {s s' : Text} {A B : Expr}

/-- What can be read from the document of a parsed expression: a number, if it is one, and the string
of its description otherwise. -/
theorem parse_of_dumps {d : Text} (hA : parse s = .ok A)
    (h : Json.dumps .standard (.expr (.parsed A)) = .ok d) :
    (∃ x, A = number x ∧ Json.parse .standard d = .ok (.double x)) ∨
      Json.parse .standard d = .ok (.text A.description) := by
  rw [A.dumps_parsed] at h
  cases A with
  | number x =>
    obtain rfl : Json.doubleLiteral x = d := Except.ok.inj h
    have hnan := (leaves_of_parse hA x List.mem_cons_self).ne_nan
    exact .inl ⟨x, rfl, Json.parse_doubleLiteral hnan⟩
  | _ =>
    obtain rfl := Except.ok.inj h
    exact .inr (Json.parse_quoted _ (isPlain_of_mem_description _))

/-- **Parsed expressions are equal if their descriptions are.** -/
theorem eq_of_description_of_parse (hA : parse s = .ok A) (hB : parse s' = .ok B)
    (h : A.description = B.description) : A = B :=
  eq_of_description (parse_eq_ok_iff.mp hA).2 (parse_eq_ok_iff.mp hB).2 (leaves_of_parse hA)
    (leaves_of_parse hB) h

/-- Parsed expressions that are written as one document are equal. -/
theorem eq_of_dumps {d : Text} (hA : parse s = .ok A) (hB : parse s' = .ok B)
    (h : Json.dumps .standard (.expr (.parsed A)) = .ok d)
    (h' : Json.dumps .standard (.expr (.parsed B)) = .ok d) : A = B := by
  rcases parse_of_dumps hA h with ⟨x, rfl, hx⟩ | hA'
  · rcases parse_of_dumps hB h' with ⟨y, rfl, hy⟩ | hB'
    · rw [hx] at hy
      cases hy
      rfl
    · rw [hx] at hB'
      cases hB'
  · rcases parse_of_dumps hB h' with ⟨y, rfl, hy⟩ | hB'
    · rw [hA'] at hy
      cases hy
    · rw [hA'] at hB'
      exact eq_of_description_of_parse hA hB (Datum.text.inj (Except.ok.inj hB'))

/-- **Texts that parse give equal expressions exactly if these have the same description**, and
exactly if they are written as the same document; and equal expressions have the same value. -/
theorem same_iff_description (hA : parse s = .ok A) (hB : parse s' = .ok B) :
    ((parsed A).same (parsed B) = true ↔ (parsed A).description = (parsed B).description) ∧
    (∃ d d', Json.dumps .standard (.expr (.parsed A)) = .ok d ∧
      Json.dumps .standard (.expr (.parsed B)) = .ok d' ∧
      ((parsed A).description = (parsed B).description ↔ d = d')) ∧
    ((parsed A).same (parsed B) = true → (parsed A).value = (parsed B).value) := by
  have hsame : (parsed A).same (parsed B) = true → A = B :=
    eq_of_same (fun x hx => (leaves_of_parse hA x hx).not_isSignSet) fun x hx =>
      (leaves_of_parse hB x hx).not_isSignSet
  refine ⟨⟨fun h => ?_, fun h => ?_⟩, ⟨_, _, A.dumps_parsed, B.dumps_parsed, fun h => ?_, fun h => ?_⟩,
    fun h => ?_⟩
  · rw [hsame h]
  · obtain rfl := eq_of_description_of_parse hA hB h
    exact (parsed A).same_self
  · obtain rfl := eq_of_description_of_parse hA hB h
    rfl
  · rw [eq_of_dumps hA hB A.dumps_parsed (h ▸ B.dumps_parsed)]
  · rw [hsame h]

/-- A blank behind the sign changes nothing, though the description cannot be read again. -/
theorem same_iff_description_overflow : ∃ A B, parse "-1e400" = .ok A ∧ parse "- 1e400" = .ok B ∧
    A.description = "-inf" ∧ (parsed A).same (parsed B) = true ∧
      (parsed A).value = (parsed B).value := by
  have hvalue : overflowing.value = .infinite false := by decide
  have hA : Lexes "-1e400" (signed .minus (number overflowing.value)).terminals [] :=
    .cons (.sign .minus) (.literal overflowing .nil)
  have hB : Lexes "- 1e400" (signed .minus (number overflowing.value)).terminals [] :=
    .cons (.sign .minus) (.append (.of_isBlank rfl) (.literal overflowing .nil))
  rw [hvalue] at hA hB
  obtain ⟨hsame, -, hequal⟩ :=
    same_iff_description (parse_of_lexes hA rfl) (parse_of_lexes hB rfl)
  exact ⟨_, _, parse_of_lexes hA rfl, parse_of_lexes hB rfl, rfl, hsame.mpr rfl,
    hequal (hsame.mpr rfl)⟩

end Reckoner.Expr
