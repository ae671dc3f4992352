import Mathlib.Data.Set.Card
import Reckoner.Node.Equality
import Reckoner.Proofs.Expr.Equality
import Reckoner.Proofs.Node.Built

/-!
# Classes of equal nodes

A set of nodes holds one node of each class of equal ones. How many those are does not depend on how
the set is kept: nodes can be compared with all that are in it (`Node.countDistinct`,
`Expr.distinct`), or only with those of the same hash (`Hashing.distinct`), since equal trees have
equal hashes (`Hashing.hash_congr`).

Main statement: what equality of nodes is, and that sets count its classes
(`Expr.equality_counts_classes`).
-/

namespace Reckoner

namespace Expr

/-! ### Counting classes -/

/-- Equality of trees. -/
def setoid : Setoid Expr := ⟨fun e f => e.same f = true, equivalence_same⟩

/-- The classes that the trees of a list are in. -/
def classes (es : List Expr) : Set (Quotient setoid) := Quotient.mk setoid '' {e | e ∈ es}

variable {e : Expr} {es seen : List Expr}

theorem finite_classes (es : List Expr) : (classes es).Finite := (List.finite_toSet es).image _

theorem classes_append (es fs : List Expr) : classes (es ++ fs) = classes es ∪ classes fs := by
  have hmem : {e | e ∈ es ++ fs} = {e | e ∈ es} ∪ {e | e ∈ fs} := by
    ext e
    exact List.mem_append
  rw [classes, hmem, Set.image_union, classes, classes]

theorem classes_singleton (e : Expr) : classes [e] = {Quotient.mk setoid e} := by simp [classes]

/-- A tree equals one of a list exactly if its class is among those of the list. -/
theorem any_same_iff : seen.any e.same = true ↔ Quotient.mk setoid e ∈ classes seen := by
  rw [List.any_eq_true]
  constructor
  · rintro ⟨f, hf, hsame⟩
    exact ⟨f, hf, (Quotient.sound (s := setoid) hsame).symm⟩
  · rintro ⟨f, hf, hclass⟩
    exact ⟨f, hf, Quotient.exact (s := setoid) hclass.symm⟩

/-- A list with one more tree, unless an equal one is there. -/
def addDistinct (seen : List Expr) (e : Expr) : List Expr :=
  if seen.any e.same then seen else seen ++ [e]

/-- **The step lemma**: the class of the tree is added, and if there was one tree of each class
before, there is afterwards. -/
theorem addDistinct_classes (seen : List Expr) (e : Expr) :
    classes (addDistinct seen e) = insert (Quotient.mk setoid e) (classes seen) ∧
      (seen.length = (classes seen).ncard →
        (addDistinct seen e).length = (classes (addDistinct seen e)).ncard) := by
  unfold addDistinct
  by_cases h : seen.any e.same = true
  · rw [if_pos h]
    exact ⟨(Set.insert_eq_of_mem (any_same_iff.mp h)).symm, id⟩
  · rw [if_neg h, classes_append, classes_singleton, Set.union_singleton]
    refine ⟨rfl, fun hlength => ?_⟩
    rw [Set.ncard_insert_of_notMem (fun hmem => h (any_same_iff.mpr hmem)) (finite_classes seen),
      ← hlength, List.length_append, List.length_singleton]

/-- **The run lemma**: adding trees one by one to one of each class leaves one of each class. -/
theorem foldl_addDistinct (es : List Expr) (hseen : seen.length = (classes seen).ncard) :
    (es.foldl addDistinct seen).length = (classes seen ∪ classes es).ncard := by
  induction es generalizing seen with
  | nil => rw [List.foldl_nil, hseen, classes, classes]; simp
  | cons e es ih =>
    obtain ⟨hclasses, hlength⟩ := addDistinct_classes seen e
    rw [List.foldl_cons, ih (hlength hseen), hclasses, ← List.singleton_append, classes_append,
      classes_singleton, Set.singleton_union, Set.insert_union, Set.union_insert]

/-- **The first trees of the classes are as many as there are classes.** -/
theorem length_distinct (es : List Expr) : (distinct es).length = (classes es).ncard := by
  have hempty : classes [] = ∅ := by simp [classes]
  have hrun := @foldl_addDistinct [] es (by rw [hempty, Set.ncard_empty]; rfl)
  rwa [hempty, Set.empty_union] at hrun

end Expr

/-! ### Nodes -/

namespace Node

theorem hasAbstract_ofExpr (e : Expr) : (ofExpr e).hasAbstract = false := by
  induction e with
  | number => rfl
  | signed s e ih => exact ih
  | binary o l r ihl ihr => rw [ofExpr, hasAbstract, ihl, ihr, Bool.or_false]
  | grouping e ih => exact ih
  | parsed e ih => exact ih

/-- A tree is compared with trees without failing. -/
theorem anyM_same_ofExpr (e : Expr) (seen : List Expr) :
    (seen.map ofExpr).anyM (fun m => (ofExpr e).same m) = .ok (seen.any e.same) := by
  induction seen with
  | nil => rfl
  | cons f seen ih =>
    rw [List.map_cons, List.anyM, same_ofExpr, List.any_cons]
    cases e.same f with
    | true => rfl
    | false => exact ih

theorem insertDistinct_ofExpr (seen : List Expr) (e : Expr) :
    insertDistinct (seen.map ofExpr) (ofExpr e) = .ok ((Expr.addDistinct seen e).map ofExpr) := by
  rw [insertDistinct, anyM_same_ofExpr, Expr.addDistinct]
  cases seen.any e.same with
  | true => rfl
  | false =>
    rw [if_neg Bool.false_ne_true, List.map_append]
    rfl

/-- **Trees are counted like nodes.** -/
theorem countDistinct_ofExpr (es : List Expr) :
    countDistinct (es.map ofExpr) = .ok (Expr.distinct es).length := by
  have hrun : ∀ seen : List Expr, (es.map ofExpr).foldlM insertDistinct (seen.map ofExpr) =
      .ok ((es.foldl Expr.addDistinct seen).map ofExpr) := by
    induction es with
    | nil => exact fun seen => rfl
    | cons e es ih =>
      intro seen
      rw [List.map_cons, List.foldlM_cons, insertDistinct_ofExpr]
      exact ih (Expr.addDistinct seen e)
  have hclear : (es.map ofExpr).any hasAbstract = false := by
    rw [List.any_eq_false]
    rintro _ hmem
    obtain ⟨e, -, rfl⟩ := List.mem_map.mp hmem
    rw [hasAbstract_ofExpr]
    exact Bool.false_ne_true
  rw [countDistinct, hclear, if_neg Bool.false_ne_true]
  refine (congrArg _ (hrun [])).trans ?_
  exact congrArg Except.ok (List.length_map _)

end Node

/-! ### Hashes -/

/-- A **hashing** gives the hashes of what keys are made of, and makes one hash of several. Equal
numbers have equal hashes. -/
structure Hashing where
  kind : String → Int
  sign : Sign → Int
  operator : Operator → Int
  double : Double → Int
  tuple : List Int → Int
  double_congr : ∀ {x y : Double}, x.same y = true → double x = double y

namespace Hashing

variable (H : Hashing) {e f : Expr}

/-- The hash of a node is that of its kind with its key. -/
def hash : Expr → Int
  | .number x => H.tuple [H.kind "Number", H.tuple [H.double x]]
  | .signed s e => H.tuple [H.kind "PrefixOperation", H.tuple [H.sign s, hash e]]
  | .binary o l r => H.tuple [H.kind "BinaryOperation", H.tuple [H.operator o, hash l, hash r]]
  | .grouping e => H.tuple [H.kind "Grouping", H.tuple [hash e]]
  | .parsed e => H.tuple [H.kind "ParsedExpression", H.tuple [hash e]]

theorem hash_normalized (e : Expr) : H.hash e.normalized = H.hash e := by
  unfold Expr.normalized
  induction e with
  | number x =>
    rw [Expr.substitute, hash, hash, H.double_congr x.normalized_same]
  | signed s e ih => rw [Expr.substitute, hash, ih, hash]
  | binary o l r ihl ihr => rw [Expr.substitute, hash, ihl, ihr, hash]
  | grouping e ih => rw [Expr.substitute, hash, ih, hash]
  | parsed e ih => rw [Expr.substitute, hash, ih, hash]

/-- **Equal trees have equal hashes.** -/
theorem hash_congr (h : e.same f = true) : H.hash e = H.hash f := by
  rw [← H.hash_normalized e, Expr.same_iff_normalized.mp h, H.hash_normalized]

/-- The elements of a set that is kept by hashes: a new tree is compared only with those of its own
hash. -/
def distinct (es : List Expr) : List Expr :=
  es.foldl (fun seen e =>
    if seen.any fun f => H.hash f = H.hash e && f.same e then seen else seen ++ [e]) []

/-- Hashes change nothing. -/
theorem distinct_eq (es : List Expr) : H.distinct es = Expr.distinct es := by
  have hany : ∀ e f : Expr, (decide (H.hash f = H.hash e) && f.same e) = e.same f := by
    intro e f
    rw [Bool.eq_iff_iff, Bool.and_eq_true_iff, decide_eq_true_eq]
    constructor
    · exact fun h => Expr.equivalence_same.symm h.2
    · exact fun h => ⟨(H.hash_congr h).symm, Expr.equivalence_same.symm h⟩
  simp only [distinct, Expr.distinct, hany]

/-- A hashing that makes remainders of numbers, as if they were fractions modulo a prime. -/
def modular : Hashing where
  kind name := name.length
  sign
    | .plus => 1
    | .minus => 2
  operator
    | .addition => 1
    | .subtraction => 2
    | .multiplication => 3
    | .division => 4
  double
    | .finite s a => (Double.signedUnits s a * 2 ^ 24).tmod (2 ^ 61 - 1)
    | .infinite s => if s then -314159 else 314159
    | .nan p => p
  tuple hs := hs.foldl (fun total h => (total * 1000003 + h) % 2 ^ 64) hs.length
  double_congr h := by
    rcases Double.same_iff.mp h with rfl | ⟨s, t, rfl, rfl⟩
    · rfl
    · simp only [Double.zero, Double.signedUnits_zero]

end Hashing

/-! ### Equality of nodes -/

/-- **Equality of nodes is structural, and sets of nodes count its classes.** The nodes that can be
built are the trees, and comparing them never fails. They are equal exactly if they are of one kind
with the same operator and with children that are equal one by one, down to equal numbers. This is
an equivalence, inequality is its negation, equal children can be exchanged, and neither a pair of
parentheses nor a parsed expression equals its content. A set of nodes has as many elements as there
are classes of equal nodes among them, whether it is kept by hashes or not. -/
theorem Expr.equality_counts_classes (H : Hashing) :
    (∀ n : Node, n.Built ↔ ∃ e, n = .ofExpr e) ∧
    (∀ e f : Expr, (Node.ofExpr e).same (.ofExpr f) = .ok (e.isEqual f)) ∧
    (∀ e f : Expr, e.isEqual f = true ↔ e.kindName = f.kindName ∧
      List.Forall₂ (fun a b => a.same b = true) e.key f.key) ∧
    (∀ x y : Double, x.same y = true ↔ x = y ∨ ∃ s t, x = .zero s ∧ y = .zero t) ∧
    (Equivalence fun e f : Expr => e.isEqual f = true) ∧
    (∀ e f : Expr, e.isDifferent f = !e.isEqual f) ∧
    (∀ e f : Expr, e.isEqual f = true →
      (∀ s, (signed s e).isEqual (signed s f) = true) ∧
      (∀ o g, (binary o e g).isEqual (binary o f g) = true) ∧
      (∀ o g, (binary o g e).isEqual (binary o g f) = true) ∧
      (grouping e).isEqual (grouping f) = true ∧ (parsed e).isEqual (parsed f) = true) ∧
    (∀ e : Expr, (grouping e).isEqual e = false ∧ (parsed e).isEqual e = false) ∧
    ∀ es : List Expr, Node.countDistinct (es.map .ofExpr) = .ok (classes es).ncard ∧
      (H.distinct es).length = (classes es).ncard := by
  have hequal : isEqual = same := funext fun e => funext e.isEqual_eq_same
  refine ⟨fun _ => Node.built_iff, fun e f => ?_, fun _ _ => isEqual_iff, fun _ _ => Double.same_iff,
    ?_, fun e f => ?_, fun e f h => ?_, fun e => ?_, fun es => ⟨?_, ?_⟩⟩
  · rw [Node.same_ofExpr, hequal]
  · rw [hequal]
    exact equivalence_same
  · rw [isDifferent_eq_not_same, hequal]
  · rw [hequal] at h ⊢
    simp [same, same_self, h]
  · rw [hequal]
    exact ⟨grouping_same e, parsed_same e⟩
  · rw [Node.countDistinct_ofExpr, length_distinct]
  · rw [H.distinct_eq, length_distinct]

/-- The two zeros make one class, and each NaN makes its own. -/
theorem Expr.equality_counts_classes_zeros_nans :
    (classes [number (.zero false), number (.nan 1), number (.zero true), number (.nan 2),
      number (.nan 1), grouping (number (.zero false))]).ncard = 4 := by
  obtain ⟨hcount, -⟩ := (equality_counts_classes Hashing.modular).2.2.2.2.2.2.2.2
    [number (.zero false), number (.nan 1), number (.zero true), number (.nan 2), number (.nan 1),
      grouping (number (.zero false))]
  exact Except.ok.inj (hcount.symm.trans (by rfl))

end Reckoner
