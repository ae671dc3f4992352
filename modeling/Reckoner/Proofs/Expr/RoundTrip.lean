import Reckoner.Expr.Equality
import Reckoner.Proofs.Expr.Lexing
import Reckoner.Proofs.Expr.Sentence

/-!
# Rendering and parsing

What becomes of a tree that is rendered and parsed again. The text always parses if the numbers of
the tree are finite, and it shows the same terminals again, so it is rendered to the same text
(`Expr.parse_description`). The tree itself comes back exactly if it was canonical and no sign bit
of a number was set (`Expr.parse_description_of_finite`).

That no other tree comes back is seen by counting. Equal trees are canonical together and have
equally many terminals, but every sign that was spelled out makes one terminal more.
-/

namespace Reckoner.Expr

/-- **Rendering a tree gives text that parses to the same rendering, exactly when its numbers are
finite.** Otherwise the first letter that begins the text of an infinity or of NaN is an invalid
character. -/
theorem parse_description (t : Expr) :
    ((∀ x ∈ t.leaves, x.isFinite = true) →
      ∃ u, parse t.description = .ok u ∧ u.description = t.description) ∧
    ((∃ x ∈ t.leaves, x.isFinite = false) →
      ∃ before c after, t.description = before ++ c :: after ∧ c ∈ Double.specialInitials ∧
        (∀ d ∈ before, d ∉ Double.specialInitials) ∧
        parse t.description = .error (.parse
          { kind := .lexicalError
            token := ⟨before.length, .error ⟨.invalidCharacter, before.length, some [c]⟩⟩
            lexical := some ⟨.invalidCharacter, before.length, some [c]⟩ })) := by
  constructor
  · intro hf
    obtain ⟨u, hu, hterminals⟩ := exists_parse_of_terminals (t.terminals_description hf)
    exact ⟨u, hu, (description_congr hterminals).trans t.description_spelled⟩
  · intro h
    obtain ⟨before, c, after, js, hdescription, hjs, hc, hbefore, hlexes⟩ :=
      breaksOff_description h
    refine ⟨before, c, after, hdescription, hc, hbefore, ?_⟩
    obtain ⟨ks, hks, htokens⟩ := hlexes after 0 0 0
    -- none of these letters begins a token
    obtain ⟨hb, hk, hd⟩ : c.isBlank = false ∧ c.terminal? = none ∧ c.isDigit = false := by
      simp only [Double.specialInitials, List.mem_cons, List.not_mem_nil, or_false] at hc
      rcases hc with rfl | rfl <;> exact ⟨rfl, rfl, rfl⟩
    rw [Cursor.tokens_invalid 0 hb hk hd, ← hdescription, Nat.zero_add] at htokens
    exact parse_of_error_behind htokens (hks ▸ hjs) rfl

theorem parse_description_product :
    (∃ u, parse (binary .multiplication (binary .addition (number (.zero false))
        (number (.zero true))) (number (.zero false))).description = .ok u ∧
      u.description = "0.0 + -0.0 * 0.0") ∧
    ∃ before c after, (number (.infinite true)).description = before ++ c :: after ∧
      ∃ e, parse (number (.infinite true)).description = .error (.parse
        ⟨.lexicalError, ⟨before.length, .error e⟩, some e⟩) := by
  refine ⟨(parse_description _).1 (by decide), ?_⟩
  obtain ⟨before, c, after, htext, -, -, h⟩ :=
    (parse_description (number (.infinite true))).2 ⟨.infinite true, by decide, rfl⟩
  exact ⟨before, c, after, htext, _, h⟩

/-! ### Equal trees -/

/-- Equal trees differ in their numbers at most, so their shapes agree. -/
theorem congr_of_same {e f : Expr} (h : e.same f = true) :
    e.isOperation = f.isOperation ∧ e.isSum = f.isSum ∧ e.isCanonical = f.isCanonical ∧
      e.terminals.length = f.terminals.length := by
  fun_induction same e f with
  | case1 x y => exact ⟨rfl, rfl, rfl, rfl⟩
  | case2 s e t f ih =>
    obtain ⟨-, hsame⟩ := Bool.and_eq_true_iff.mp h
    obtain ⟨hop, -, hcan, hlen⟩ := ih hsame
    exact ⟨rfl, rfl, by rw [isCanonical, isCanonical, hop, hcan], by simp [terminals, hlen]⟩
  | case3 o l r p l' r' ihl ihr =>
    obtain ⟨hleft, hr⟩ := Bool.and_eq_true_iff.mp h
    obtain ⟨ho, hl⟩ := Bool.and_eq_true_iff.mp hleft
    obtain ⟨-, hsuml, hcanl, hlenl⟩ := ihl hl
    obtain ⟨hopr, hsumr, hcanr, hlenr⟩ := ihr hr
    obtain rfl : o = p := of_decide_eq_true ho
    refine ⟨rfl, rfl, ?_, by simp [terminals, hlenl, hlenr]⟩
    rw [isCanonical, isCanonical, hsuml, hopr, hsumr, hcanl, hcanr]
  | case4 e f ih =>
    obtain ⟨-, -, hcan, hlen⟩ := ih h
    exact ⟨rfl, rfl, hcan, by simp [terminals, hlen]⟩
  | case5 e f ih =>
    obtain ⟨-, -, -, hlen⟩ := ih h
    exact ⟨rfl, rfl, rfl, hlen⟩
  | case6 => cases h

/-- **Rendering and parsing again is the identity exactly on canonical trees without signed
numbers.** A canonical tree comes back with its signs spelled out and with the same value. What
comes back for a tree of another shape, or with a number whose sign bit is set, is not equal to
it. -/
theorem parse_description_of_finite (t : Expr) (hf : ∀ x ∈ t.leaves, x.isFinite = true) :
    (t.isCanonical = true →
      parse t.description = .ok t.spelled ∧ t.spelled.value = t.value) ∧
    (t.isCanonical = false ∨ (∃ x ∈ t.leaves, x.isSignSet = true) →
      ∃ u, parse t.description = .ok u ∧ u.same t = false) := by
  have hterminals := t.terminals_description hf
  constructor
  · intro hcan
    refine ⟨parse_eq_ok_iff.mpr ⟨hterminals, ?_⟩, t.value_spelled⟩
    rw [isCanonical_spelled, hcan]
  · intro hother
    obtain ⟨u, hu, huterminals⟩ := exists_parse_of_terminals hterminals
    refine ⟨u, hu, Bool.eq_false_iff.mpr fun hsame => ?_⟩
    obtain ⟨-, -, hcan, hlen⟩ := congr_of_same hsame
    rcases hother with hcan' | hsign
    · rw [(parse_eq_ok_iff.mp hu).2, hcan'] at hcan
      cases hcan
    -- every sign that was spelled out is a terminal that `t` does not have
    · have hcount : 0 < t.leaves.countP Double.isSignSet := List.countP_pos_iff.mpr hsign
      have hspelled := t.length_terminals_spelled
      rw [huterminals] at hlen
      omega

/-- A canonical tree with signs in two of its numbers. -/
def negativeFactor : Expr :=
  binary .subtraction (number (.zero false)) (binary .multiplication
    (number (.finite true ⟨2 ^ 62, by decide⟩)) (grouping (number (.zero true))))

/-- A sum as a factor, without the parentheses that it would need. -/
def sumFactor : Expr :=
  binary .multiplication (binary .addition (number (.zero false))
    (number (.finite false ⟨2 ^ 62, by decide⟩))) (number (.zero false))

/-- The factor `-2.0` comes back as a sign with `2.0` behind it, which is another tree of the same
value. Another tree comes back for a sum as a factor, too. -/
theorem parse_description_of_finite_factor :
    negativeFactor.description = "0.0 - -2.0 * (-0.0)" ∧
    parse "0.0 - -2.0 * (-0.0)" = .ok (binary .subtraction (number (.zero false))
      (binary .multiplication (signed .minus (number (.finite false ⟨2 ^ 62, by decide⟩)))
        (grouping (signed .minus (number (.zero false)))))) ∧
    negativeFactor.spelled.value = negativeFactor.value ∧
    (∃ u, parse "0.0 - -2.0 * (-0.0)" = .ok u ∧ u.same negativeFactor = false) ∧
    ∃ u, parse sumFactor.description = .ok u ∧ u.same sumFactor = false := by
  have htext : negativeFactor.description = "0.0 - -2.0 * (-0.0)" := by decide +kernel
  obtain ⟨hcanonical, hother⟩ := parse_description_of_finite negativeFactor (by decide)
  rw [htext] at hcanonical hother
  obtain ⟨hparse, hvalue⟩ := hcanonical rfl
  exact ⟨htext, hparse, hvalue, hother (.inr ⟨.zero true, by decide, rfl⟩),
    (parse_description_of_finite sumFactor (by decide)).2 (.inl rfl)⟩

end Reckoner.Expr
