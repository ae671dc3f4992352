import Reckoner.Codec
import Reckoner.Node.Basic

/-!
# The nodes that can be built

Nodes are built on one another, from numbers and from texts, and parts of nodes that were built are
nodes again. Nothing is asked of the parts of a node, but as long as only nodes are built on, no
abstract node and no datum gets among them.

Main statement: the nodes that can be built are the trees (`Node.built_iff`).
-/

namespace Reckoner

/-- The text of a string determines the string. -/
theorem Text.ofString_inj {s t : String} : Text.ofString s = Text.ofString t ↔ s = t := by
  have hscalar : Function.Injective CodePoint.scalar := fun _ _ => CodePoint.scalar.inj
  rw [← String.toList_inj]
  exact List.map_inj_right hscalar

namespace Node

/-- The names of the attributes that are parts of a node and nodes themselves. -/
def childNames : List Text := ["operand", "left", "right", "expression"]

/-- The nodes that can be **built**, by any sequence of steps. -/
inductive Built : Node → Prop
  | number {d : Datum} {e : Expr} (h : Expr.ofDatum d = .ok e) : Built (ofExpr e)
  | signed {sign : Datum} {n m : Node} (hn : Built n) (h : putSign sign n = .ok m) : Built m
  | binary {operator : Datum} {l r m : Node} (hl : Built l) (hr : Built r)
      (h : join operator l r = .ok m) : Built m
  | grouping {n : Node} (hn : Built n) : Built (grouping n)
  | parsed {n m : Node} (hn : Built n) (h : n.markParsed = .ok m) : Built m
  | parse {t : Text} {root : Expr} (h : Expr.parse t = .ok root) : Built (ofExpr (.parsed root))
  | fromNumber {d : Datum} {root : Expr} (h : Expr.ofDatum d = .ok root) :
      Built (ofExpr (.parsed root))
  | decode {d : Datum} {root : Expr} (h : Expr.decode d = .ok root) : Built (ofExpr (.parsed root))
  | child {n m : Node} {name : Text} (hn : Built n) (hname : name ∈ childNames)
      (h : n.get name = .ok m) : Built m

/-- The child of a tree is a tree. -/
theorem exists_eq_of_get {e : Expr} {m : Node} {name : Text} (hname : name ∈ childNames)
    (h : (ofExpr e).get name = .ok m) : ∃ f, m = ofExpr f := by
  simp only [childNames, List.mem_cons, List.not_mem_nil, or_false] at hname
  rcases hname with rfl | rfl | rfl | rfl <;> cases e <;>
    simp [get, attributes, views, parts, ofExpr, Text.ofString_inj] at h
  all_goals exact ⟨_, h.symm⟩

/-- Every tree can be built. -/
theorem built_ofExpr (e : Expr) : (ofExpr e).Built := by
  induction e with
  | number x => exact @Built.number (.double x) _ rfl
  | signed s e ih => exact @Built.signed (.sign s) _ _ ih rfl
  | binary o l r ihl ihr => exact @Built.binary (.operator o) _ _ _ ihl ihr rfl
  | grouping e ih => exact .grouping ih
  | parsed e ih =>
    refine .parsed ih ?_
    cases e <;> rfl

/-- **The nodes that can be built are the trees.** -/
theorem built_iff {n : Node} : n.Built ↔ ∃ e, n = ofExpr e := by
  constructor
  · intro h
    induction h with
    | number => exact ⟨_, rfl⟩
    | @signed sign _ _ _ h ih =>
      obtain ⟨e, rfl⟩ := ih
      cases sign with
      | sign s =>
        cases h
        exact ⟨.signed s e, rfl⟩
      | _ => cases h
    | @binary operator _ _ _ _ _ h ihl ihr =>
      obtain ⟨l, rfl⟩ := ihl
      obtain ⟨r, rfl⟩ := ihr
      cases operator with
      | operator o =>
        cases h
        exact ⟨.binary o l r, rfl⟩
      | _ => cases h
    | grouping _ ih =>
      obtain ⟨e, rfl⟩ := ih
      exact ⟨.grouping e, rfl⟩
    | parsed _ h ih =>
      obtain ⟨e, rfl⟩ := ih
      have hmark : (ofExpr e).markParsed = .ok (ofExpr (.parsed e)) := by cases e <;> rfl
      exact ⟨.parsed e, Except.ok.inj (h.symm.trans hmark)⟩
    | parse => exact ⟨_, rfl⟩
    | fromNumber => exact ⟨_, rfl⟩
    | decode => exact ⟨_, rfl⟩
    | child _ hname h ih =>
      obtain ⟨e, rfl⟩ := ih
      exact exists_eq_of_get hname h
  · rintro ⟨e, rfl⟩
    exact built_ofExpr e

end Node

end Reckoner
