import Mathlib.Data.List.Forall2
import Reckoner.Proofs.Double.Agreement
import Reckoner.Proofs.Expr.Distinctness

/-!
# Equality of trees

A tree is *normalized* by dropping the signs of the zeros among its numbers (`Expr.normalized`), and
trees are equal exactly if they are the same tree when normalized (`Expr.same_iff_normalized`). So
equality is an equivalence.

Nodes are compared by their *keys* (`Expr.key`): a node is asked whether it equals another one, and
answers if that is of its own kind, by comparing the parts of both in turn (`Expr.answer?`). If
neither of the two answers, they are equal only if they are one object, which nodes of two kinds
never are. This is what equality of trees comes to (`Expr.isEqual_eq_same`), and inequality is its
negation (`Expr.isDifferent_eq_not_same`).
-/

namespace Reckoner

/-! ### Normalized trees -/

/-- A number without the sign of a zero. -/
def Double.normalized (x : Double) : Double := if x.isZero then .zero false else x

theorem Double.same_iff_normalized {x y : Double} :
    x.same y = true ↔ x.normalized = y.normalized := by
  constructor
  · intro h
    rcases same_iff.mp h with rfl | ⟨s, t, rfl, rfl⟩
    · rfl
    · rw [normalized, normalized, if_pos (isZero_iff.mpr ⟨s, rfl⟩),
        if_pos (isZero_iff.mpr ⟨t, rfl⟩)]
  · intro h
    unfold normalized at h
    split at h <;> split at h
    · next hx hy =>
      obtain ⟨s, rfl⟩ := isZero_iff.mp hx
      obtain ⟨t, rfl⟩ := isZero_iff.mp hy
      exact same_iff.mpr (.inr ⟨s, t, rfl, rfl⟩)
    · next hy => exact absurd (h ▸ rfl) hy
    · next hx _ => exact absurd (h ▸ rfl) hx
    · exact h ▸ same_self x

theorem Double.normalized_same (x : Double) : x.normalized.same x = true := by
  unfold normalized
  split
  · next hx =>
    obtain ⟨s, rfl⟩ := isZero_iff.mp hx
    exact same_iff.mpr (.inr ⟨false, s, rfl, rfl⟩)
  · exact same_self x

/-- Without the sign of a zero, and with its sign, a number is determined. -/
theorem Double.eq_of_normalized {x y : Double} (h : x.normalized = y.normalized)
    (hs : x.isSignSet = y.isSignSet) : x = y := by
  rcases same_iff.mp (same_iff_normalized.mpr h) with rfl | ⟨s, t, rfl, rfl⟩
  · rfl
  · exact congrArg zero hs

namespace Expr

variable {e f g : Expr}

/-- A tree without the signs of the zeros among its numbers. -/
def normalized (e : Expr) : Expr := e.substitute fun x => number x.normalized

/-- **Trees are equal exactly if they are one tree when normalized.** -/
theorem same_iff_normalized : e.same f = true ↔ e.normalized = f.normalized := by
  unfold normalized
  induction e generalizing f with
  | number x => cases f <;> simp [same, substitute, Double.same_iff_normalized]
  | signed s e ih => cases f <;> simp [same, substitute, ih]
  | binary o l r ihl ihr => cases f <;> simp [same, substitute, ihl, ihr, and_assoc]
  | grouping e ih => cases f <;> simp [same, substitute, ih]
  | parsed e ih => cases f <;> simp [same, substitute, ih]

/-- Equality of trees is an equivalence. -/
theorem equivalence_same : Equivalence fun e f : Expr => e.same f = true where
  refl := same_self
  symm h := same_iff_normalized.mpr (same_iff_normalized.mp h).symm
  trans h h' :=
    same_iff_normalized.mpr ((same_iff_normalized.mp h).trans (same_iff_normalized.mp h'))

/-- A pair of parentheses never equals its content. -/
theorem grouping_same (e : Expr) : (grouping e).same e = false := by
  refine Bool.eq_false_iff.mpr fun h => ?_
  have hsize := congrArg sizeOf (same_iff_normalized.mp h)
  simp [normalized, substitute] at hsize

/-- A mark of a parsed expression never equals its root. -/
theorem parsed_same (e : Expr) : (parsed e).same e = false := by
  refine Bool.eq_false_iff.mpr fun h => ?_
  have hsize := congrArg sizeOf (same_iff_normalized.mp h)
  simp [normalized, substitute] at hsize

/-! ### Keys -/

/-- A **part** of a node, as it is compared. -/
inductive Part where
  | number (x : Double)
  | sign (s : Sign)
  | operator (o : Operator)
  | node (e : Expr)

/-- Equality of parts. -/
def Part.same : Part → Part → Bool
  | number x, number y => x.same y
  | sign s, sign t => s = t
  | operator o, operator p => o = p
  | node e, node f => e.same f
  | _, _ => false

/-- The **key** of a node: the parts that it is compared by. -/
def key : Expr → List Part
  | number x => [.number x]
  | signed s e => [.sign s, .node e]
  | binary o l r => [.operator o, .node l, .node r]
  | grouping e => [.node e]
  | parsed e => [.node e]

/-- What a node answers when it is asked whether it equals another one. It does not answer if that
is of another kind. -/
def answer? (e f : Expr) : Option Bool :=
  if e.kindName = f.kindName then some (e.key.all₂ Part.same f.key) else none

/-- Whether nodes are equal: either of them may answer, and nodes of which none does are not one
object. -/
def isEqual (e f : Expr) : Bool := ((e.answer? f).or (f.answer? e)).getD false

/-- Whether nodes are different, by the opposite of what either of them answers. -/
def isDifferent (e f : Expr) : Bool :=
  (((e.answer? f).map not).or ((f.answer? e).map not)).getD true

/-- Nodes of one kind are equal exactly if their parts are, one by one. -/
theorem same_iff_key (h : e.kindName = f.kindName) :
    e.same f = true ↔ List.Forall₂ (fun a b => a.same b = true) e.key f.key := by
  cases e <;> cases f <;> simp_all [kindName, key, same, Part.same, and_assoc]

/-- Nodes of different kinds are not equal. -/
theorem same_of_kindName_ne (h : e.kindName ≠ f.kindName) : e.same f = false := by
  cases e <;> cases f <;> first | rfl | exact absurd rfl h

/-- A node answers rightly whether another one of its kind is equal. -/
theorem answer?_eq (e f : Expr) :
    e.answer? f = if e.kindName = f.kindName then some (e.same f) else none := by
  unfold answer?
  split
  · next h => rw [Bool.eq_iff_iff.mpr ((List.all₂_eq_true _ _).trans (same_iff_key h).symm)]
  · rfl

theorem isEqual_eq_same (e f : Expr) : e.isEqual f = e.same f := by
  rw [isEqual, answer?_eq, answer?_eq]
  by_cases h : e.kindName = f.kindName
  · rw [if_pos h]
    rfl
  · rw [if_neg h, if_neg (Ne.symm h), same_of_kindName_ne h]
    rfl

theorem isDifferent_eq_not_same (e f : Expr) : e.isDifferent f = !e.same f := by
  rw [isDifferent, answer?_eq, answer?_eq]
  by_cases h : e.kindName = f.kindName
  · rw [if_pos h]
    rfl
  · rw [if_neg h, if_neg (Ne.symm h), same_of_kindName_ne h]
    rfl

/-- **Nodes are equal exactly if they are of one kind and their parts are equal one by one.** -/
theorem isEqual_iff : e.isEqual f = true ↔ e.kindName = f.kindName ∧
    List.Forall₂ (fun a b => a.same b = true) e.key f.key := by
  rw [isEqual_eq_same]
  by_cases h : e.kindName = f.kindName
  · rw [same_iff_key h, and_iff_right h]
  · rw [same_of_kindName_ne h]
    exact iff_of_false Bool.false_ne_true fun hkey => h hkey.1

end Expr

end Reckoner
