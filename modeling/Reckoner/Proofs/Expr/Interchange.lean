import Reckoner.Proofs.Expr.Equality

/-!
# Equal expressions in place of each other

Equal trees can differ in the signs of zeros, and in nothing else. A description shows these signs,
and a division by a zero looks at them.

Main statement: equal expressions whose numbers have the same signs have one description and one
value; if signs differ, so do the descriptions, and the values agree all the same unless something is
divided by a zero (`Expr.interchangeable_of_same`).
-/

namespace Reckoner.Expr

variable {e f : Expr}

/-- The signs of the numbers of a tree, from left to right. -/
def signs (e : Expr) : List Bool := e.leaves.map Double.isSignSet

/-- Whether a number is divided by a zero when a tree is evaluated. -/
def dividesByZero : Expr → Bool
  | number _ => false
  | signed _ e => e.dividesByZero
  | binary o l r => l.dividesByZero || r.dividesByZero || (o = .division && r.value.isZero)
  | grouping e => e.dividesByZero
  | parsed e => e.dividesByZero

/-! ### Trees -/

/-- Equal trees whose numbers have the same signs are one tree. -/
theorem eq_of_same_of_signs (h : e.same f = true) (hs : e.signs = f.signs) : e = f := by
  rw [same_iff_normalized] at h
  have hinjective : Function.Injective fun x : Double => (x.normalized, x.isSignSet) := by
    intro x y hxy
    obtain ⟨hnormalized, hsign⟩ := Prod.ext_iff.mp hxy
    exact Double.eq_of_normalized hnormalized hsign
  have hleaves : e.leaves.map Double.normalized = f.leaves.map Double.normalized := by
    rw [← leaves_substitute, ← leaves_substitute]
    exact congrArg leaves h
  have hblanked : ∀ e : Expr, e.normalized.blanked = e.blanked := substitute_substitute _
  refine eq_of_blanked ?_ ?_
  · rw [← hblanked e, h, hblanked]
  · refine List.map_injective_iff.mpr hinjective ?_
    rw [← List.zip_map', ← List.zip_map', hleaves]
    exact congrArg _ hs

/-- Equal trees are one tree if their descriptions are, whatever follows these. -/
theorem eq_of_description_append {u v : Text} (h : e.same f = true)
    (ht : e.description ++ u = f.description ++ v) : e = f ∧ u = v := by
  fun_induction same e f generalizing u v with
  | case1 x y =>
    rcases Double.same_iff.mp h with rfl | ⟨s, t, rfl, rfl⟩
    · exact ⟨rfl, List.append_cancel_left ht⟩
    · -- a zero begins with a hyphen or with a digit
      have hhead := congrArg List.head? ht
      obtain rfl : s = t := by
        cases s <;> cases t
        · rfl
        · cases hhead
        · cases hhead
        · rfl
      exact ⟨rfl, List.append_cancel_left ht⟩
  | case2 s e t f ih =>
    obtain ⟨hs, hsame⟩ := Bool.and_eq_true_iff.mp h
    obtain rfl := of_decide_eq_true hs
    obtain ⟨rfl, huv⟩ := ih hsame (List.cons.inj ht).2
    exact ⟨rfl, huv⟩
  | case3 o l r p l' r' ihl ihr =>
    obtain ⟨hleft, hr⟩ := Bool.and_eq_true_iff.mp h
    obtain ⟨ho, hl⟩ := Bool.and_eq_true_iff.mp hleft
    obtain rfl := of_decide_eq_true ho
    simp only [description, List.append_assoc] at ht
    obtain ⟨rfl, hrest⟩ := ihl hl ht
    obtain ⟨rfl, huv⟩ := ihr hr (List.append_cancel_left hrest)
    exact ⟨rfl, huv⟩
  | case4 e f ih =>
    simp only [description, List.cons_append, List.append_assoc] at ht
    obtain ⟨rfl, hrest⟩ := ih h (List.cons.inj ht).2
    exact ⟨rfl, (List.cons.inj hrest).2⟩
  | case5 e f ih =>
    obtain ⟨rfl, huv⟩ := ih h ht
    exact ⟨rfl, huv⟩
  | case6 => cases h

/-! ### Values -/

/-- The values of operations agree if those of the operands do, unless a zero divides. -/
theorem agree_apply {x x' y y' : Double} (o : Operator) (hx : x.Agree x') (hy : y.Agree y')
    (hzero : o = .division → y.isZero = false) : (o.apply x y).Agree (o.apply x' y') := by
  cases o with
  | addition => exact hx.add hy
  | subtraction => exact hx.sub hy
  | multiplication => exact hx.mul hy
  | division => exact hx.div hy (hzero rfl)

/-- **The values of equal trees agree**, unless something is divided by a zero. -/
theorem agree_value (h : e.same f = true) (hzero : e.dividesByZero = false) :
    e.value.Agree f.value := by
  fun_induction same e f with
  | case1 x y => exact .of_same h
  | case2 s e t f ih =>
    obtain ⟨hs, hsame⟩ := Bool.and_eq_true_iff.mp h
    obtain rfl := of_decide_eq_true hs
    have hvalue := ih hsame hzero
    cases s with
    | plus => exact hvalue
    | minus => exact hvalue.neg
  | case3 o l r p l' r' ihl ihr =>
    obtain ⟨hleft, hr⟩ := Bool.and_eq_true_iff.mp h
    obtain ⟨ho, hl⟩ := Bool.and_eq_true_iff.mp hleft
    obtain rfl := of_decide_eq_true ho
    simp only [dividesByZero, Bool.or_eq_false_iff, Bool.and_eq_false_iff,
      decide_eq_false_iff_not] at hzero
    obtain ⟨⟨hzerol, hzeror⟩, hdivisor⟩ := hzero
    exact agree_apply o (ihl hl hzerol) (ihr hr hzeror) fun ho =>
      hdivisor.resolve_left (not_not_intro ho)
  | case4 e f ih => exact ih h hzero
  | case5 e f ih => exact ih h hzero
  | case6 => cases h

/-! ### Expressions in place of each other -/

/-- **Equal expressions can stand for each other, up to the signs of zeros.** If their numbers have
the same signs, they have one description and one value, and if not, different descriptions. In
any case the values are equal, or both a NaN, unless something is divided by a zero. -/
theorem interchangeable_of_same (h : e.same f = true) :
    (e.signs = f.signs → e.description = f.description ∧ e.value = f.value) ∧
    (e.signs ≠ f.signs → e.description ≠ f.description) ∧
    (e.dividesByZero = false → e.value.same f.value = true ∨
      (∃ p, e.value = .nan p) ∧ ∃ q, f.value = .nan q) := by
  refine ⟨fun hs => ?_, fun hs hd => hs ?_, fun hzero => ?_⟩
  · rw [eq_of_same_of_signs h hs]
    exact ⟨rfl, rfl⟩
  · rw [(eq_of_description_append h (congrArg (· ++ []) hd)).1]
  · exact Double.agree_iff.mp (agree_value h hzero)

/-- The two zeros are equal, with different descriptions, and so are their opposites. -/
theorem interchangeable_of_same_zeros :
    (signed .minus (number (.zero false))).same (signed .minus (number (.zero true))) = true ∧
    (signed .minus (number (.zero false))).description ≠
      (signed .minus (number (.zero true))).description ∧
    (signed .minus (number (.zero false))).value.same
      (signed .minus (number (.zero true))).value = true := by
  have h : (signed .minus (number (.zero false))).same (signed .minus (number (.zero true))) =
    true := rfl
  exact ⟨h, (interchangeable_of_same h).2.1 (by decide),
    ((interchangeable_of_same h).2.2 rfl).resolve_right (by rintro ⟨⟨p, hp⟩, -⟩; cases hp)⟩

/-- One divided by a zero. -/
def overZero (negative : Bool) : Expr :=
  binary .division (number (.finite false ⟨1023 * Double.significands, by decide⟩))
    (number (.zero negative))

/-- The quotients of one by the two zeros are equal expressions without a NaN among their numbers,
with different descriptions and with different infinities for values. -/
theorem overZero_not_interchangeable :
    (overZero false).same (overZero true) = true ∧
    (∀ x ∈ (overZero false).leaves ++ (overZero true).leaves, ∀ p, x ≠ .nan p) ∧
    (overZero false).description ≠ (overZero true).description ∧
    (overZero false).value = .infinite false ∧ (overZero true).value = .infinite true := by
  have hsame : (overZero false).same (overZero true) = true := by decide
  refine ⟨hsame, ?_, fun hd => ?_, by decide, by decide⟩
  · simp [overZero, leaves, Double.zero]
  · have heq := (eq_of_description_append hsame (congrArg (· ++ []) hd)).1
    exact absurd heq (by decide)

end Reckoner.Expr
