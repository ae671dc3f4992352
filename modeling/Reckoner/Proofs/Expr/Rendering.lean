import Reckoner.Proofs.Expr.Canonical

/-!
# What the text of a tree shows

The description of a tree depends on its terminals alone (`Expr.description_congr`): an operator
has blanks around it exactly where an operand was completed before it, and nothing else of the
shape is written.

The hyphen of a negative number is a sign to whoever reads the text. Spelling out the signs of a
tree (`Expr.spelled`) puts a minus in front of the opposite of each number whose sign bit is set.
This changes neither the description of the tree, nor its value, nor whether it is canonical; it
makes the sequence of terminals longer by one for each such number.
-/

namespace Reckoner

/-- Whether the sign bit of a number is set. The sign of a NaN is not modelled, nor written. -/
def Double.isSignSet : Double → Bool
  | finite s _ => s
  | infinite s => s
  | nan _ => false

namespace Double

variable {x : Double}

theorem neg_neg (x : Double) : -(-x) = x := by
  cases x with
  | finite s a => exact congrArg (finite · a) (Bool.not_not s)
  | infinite s => exact congrArg infinite (Bool.not_not s)
  | nan p => rfl

theorem isSignSet_neg (h : x.isSignSet = true) : (-x).isSignSet = false := by
  cases x with
  | finite s a =>
    obtain rfl : s = true := h
    rfl
  | infinite s =>
    obtain rfl : s = true := h
    rfl
  | nan p => cases h

theorem isFinite_neg (x : Double) : (-x).isFinite = x.isFinite := by
  cases x <;> rfl

/-- A number whose sign bit is set is written as a hyphen and the opposite number. -/
theorem text_of_isSignSet (h : x.isSignSet = true) : x.text = .scalar '-' :: (-x).text := by
  cases x with
  | finite s a =>
    obtain rfl : s = true := h
    rfl
  | infinite s =>
    obtain rfl : s = true := h
    rfl
  | nan p => cases h

end Double

/-! ### Rendering a sequence of terminals -/

/-- Whether an operand is completed behind a terminal. -/
def Terminal.completes : Terminal → Bool
  | number _ => true
  | rightParen => true
  | leftParen => false
  | operator _ => false
  | error _ => false
  | finish => false

/-- How a terminal is written, behind a completed operand or where an operand is expected. -/
def Terminal.written (completed : Bool) : Terminal → Text
  | leftParen => [.scalar '(']
  | rightParen => [.scalar ')']
  | operator o => if completed then Text.ofChars [' ', o.symbol, ' '] else [.scalar o.symbol]
  | number x => x.text
  | error _ | finish => []

/-- The text of a sequence of terminals. -/
def Text.ofTerminals (completed : Bool) : List Terminal → Text
  | [] => []
  | k :: ks => k.written completed ++ ofTerminals k.completes ks

namespace Expr

/-- The description of a tree is the text of its terminals. -/
theorem ofTerminals_append (e : Expr) (ks : List Terminal) :
    Text.ofTerminals false (e.terminals ++ ks) = e.description ++ Text.ofTerminals true ks := by
  induction e generalizing ks with
  | number x => rfl
  | signed s e ih =>
    rw [terminals, List.cons_append, Text.ofTerminals, Terminal.completes, ih, description]
    simp [Terminal.written]
  | binary o l r ihl ihr =>
    rw [terminals, List.append_assoc, ihl, List.cons_append, Text.ofTerminals,
      Terminal.completes, ihr, description]
    simp [Terminal.written]
  | grouping e ih =>
    rw [terminals, List.cons_append, Text.ofTerminals, Terminal.completes, List.append_assoc, ih,
      description]
    simp [Terminal.written, Text.ofTerminals, Terminal.completes]
  | parsed e ih => exact ih ks

/-- **The description depends on the terminals alone.** -/
theorem description_congr {e f : Expr} (h : e.terminals = f.terminals) :
    e.description = f.description := by
  have hdescription : ∀ e : Expr, e.description = Text.ofTerminals false e.terminals := by
    intro e
    simpa [Text.ofTerminals] using (e.ofTerminals_append []).symm
  rw [hdescription e, hdescription f, h]

/-! ### Leaves -/

/-- The numbers at the leaves of a tree, from left to right. -/
def leaves : Expr → List Double
  | number x => [x]
  | signed _ e => e.leaves
  | binary _ l r => l.leaves ++ r.leaves
  | grouping e => e.leaves
  | parsed e => e.leaves

/-- A tree with a tree in place of each of its numbers, and nothing else changed. -/
def substitute (f : Double → Expr) : Expr → Expr
  | number x => f x
  | signed s e => signed s (e.substitute f)
  | binary o l r => binary o (l.substitute f) (r.substitute f)
  | grouping e => grouping (e.substitute f)
  | parsed e => parsed (e.substitute f)

section Substitute

variable {f : Double → Expr}

/-- Replacing numbers by trees with the same text does not change the description. -/
theorem description_substitute (hf : ∀ x, (f x).description = x.text) (e : Expr) :
    (e.substitute f).description = e.description := by
  induction e with
  | number x => exact hf x
  | signed s e ih => rw [substitute, description, ih, description]
  | binary o l r ihl ihr => rw [substitute, description, ihl, ihr, description]
  | grouping e ih => rw [substitute, description, ih, description]
  | parsed e ih => exact ih

theorem value_substitute (hf : ∀ x, (f x).value = x) (e : Expr) :
    (e.substitute f).value = e.value := by
  induction e with
  | number x => exact hf x
  | signed s e ih => rw [substitute, value, ih, value]
  | binary o l r ihl ihr => rw [substitute, value, ihl, ihr, value]
  | grouping e ih => exact ih
  | parsed e ih => exact ih

theorem isOperation_substitute (hf : ∀ x, (f x).isOperation = false) (e : Expr) :
    (e.substitute f).isOperation = e.isOperation := by
  cases e with
  | number x => exact hf x
  | _ => rfl

theorem isSum_substitute (hf : ∀ x, (f x).isOperation = false) (e : Expr) :
    (e.substitute f).isSum = e.isSum := by
  cases e with
  | number x => exact isSum_of_isOperation (hf x)
  | _ => rfl

/-- Replacing numbers by canonical trees that are no binary operations keeps a tree canonical. -/
theorem isCanonical_substitute (hf : ∀ x, (f x).isOperation = false)
    (hcan : ∀ x, (f x).isCanonical = true) (e : Expr) :
    (e.substitute f).isCanonical = e.isCanonical := by
  induction e with
  | number x => exact hcan x
  | signed s e ih => rw [substitute, isCanonical, isOperation_substitute hf, ih, isCanonical]
  | binary o l r ihl ihr =>
    rw [substitute, isCanonical, isSum_substitute hf, isSum_substitute hf,
      isOperation_substitute hf, ihl, ihr, isCanonical]
  | grouping e ih => exact ih
  | parsed e => rfl

/-- Replacing twice is replacing once, by trees in which the second replacement is made. -/
theorem substitute_substitute (g : Double → Expr) (e : Expr) :
    (e.substitute f).substitute g = e.substitute fun x => (f x).substitute g := by
  induction e with
  | number x => rfl
  | signed s e ih => rw [substitute, substitute, ih, substitute]
  | binary o l r ihl ihr => rw [substitute, substitute, ihl, ihr, substitute]
  | grouping e ih => rw [substitute, substitute, ih, substitute]
  | parsed e ih => rw [substitute, substitute, ih, substitute]

/-- Replacing numbers by numbers replaces the leaves. -/
theorem leaves_substitute (f : Double → Double) (e : Expr) :
    (e.substitute fun x => number (f x)).leaves = e.leaves.map f := by
  induction e with
  | number x => rfl
  | signed s e ih => exact ih
  | binary o l r ihl ihr => rw [substitute, leaves, ihl, ihr, leaves, List.map_append]
  | grouping e ih => exact ih
  | parsed e ih => exact ih

theorem substitute_eq_self {e : Expr} (h : ∀ x ∈ e.leaves, f x = number x) :
    e.substitute f = e := by
  induction e with
  | number x => exact h x List.mem_cons_self
  | signed s e ih => rw [substitute, ih h]
  | binary o l r ihl ihr =>
    obtain ⟨hl, hr⟩ := List.forall_mem_append.mp h
    rw [substitute, ihl hl, ihr hr]
  | grouping e ih => rw [substitute, ih h]
  | parsed e ih => rw [substitute, ih h]

end Substitute

/-! ### Signs -/

/-- A number, or a minus and the opposite number if the sign bit is set. -/
def ofSigned (x : Double) : Expr :=
  if x.isSignSet then signed .minus (number (-x)) else number x

theorem ofSigned_cases (x : Double) :
    x.isSignSet = true ∧ ofSigned x = signed .minus (number (-x)) ∨
      x.isSignSet = false ∧ ofSigned x = number x := by
  cases hx : x.isSignSet with
  | true => exact .inl ⟨rfl, if_pos hx⟩
  | false => exact .inr ⟨rfl, if_neg (by simp [hx])⟩

theorem isOperation_ofSigned (x : Double) : (ofSigned x).isOperation = false := by
  obtain ⟨-, h⟩ | ⟨-, h⟩ := ofSigned_cases x
  · rw [h]
    rfl
  · rw [h]
    rfl

theorem isCanonical_ofSigned (x : Double) : (ofSigned x).isCanonical = true := by
  obtain ⟨-, h⟩ | ⟨-, h⟩ := ofSigned_cases x
  · rw [h]
    rfl
  · rw [h]
    rfl

/-- A tree with a minus in front of the opposite of each number whose sign bit is set. -/
def spelled (e : Expr) : Expr := e.substitute ofSigned

@[simp] theorem description_spelled (e : Expr) : e.spelled.description = e.description := by
  refine description_substitute (fun x => ?_) e
  obtain ⟨hx, h⟩ | ⟨-, h⟩ := ofSigned_cases x
  · rw [h, Double.text_of_isSignSet hx]
    rfl
  · rw [h]
    rfl

@[simp] theorem value_spelled (e : Expr) : e.spelled.value = e.value := by
  refine value_substitute (fun x => ?_) e
  obtain ⟨-, h⟩ | ⟨-, h⟩ := ofSigned_cases x
  · rw [h]
    exact Double.neg_neg x
  · rw [h]
    rfl

@[simp] theorem isCanonical_spelled (e : Expr) : e.spelled.isCanonical = e.isCanonical :=
  isCanonical_substitute isOperation_ofSigned isCanonical_ofSigned e

/-- Each number whose sign bit is set gives one more terminal. -/
theorem length_terminals_spelled (e : Expr) :
    e.spelled.terminals.length = e.terminals.length + e.leaves.countP Double.isSignSet := by
  unfold spelled
  induction e with
  | number x =>
    obtain ⟨hx, h⟩ | ⟨hx, h⟩ := ofSigned_cases x <;>
      simp [substitute, h, terminals, leaves, hx]
  | signed s e ih =>
    simp only [substitute, terminals, leaves, List.length_cons, ih]
    omega
  | binary o l r ihl ihr =>
    simp only [substitute, terminals, leaves, List.length_append, List.length_cons, ihl, ihr,
      List.countP_append]
    omega
  | grouping e ih =>
    simp only [substitute, terminals, leaves, List.length_append, List.length_cons, ih]
    omega
  | parsed e ih => exact ih

/-- Where no sign bit is set nothing is spelled out. -/
theorem spelled_eq_self {e : Expr} (h : ∀ x ∈ e.leaves, x.isSignSet = false) : e.spelled = e :=
  substitute_eq_self fun x hx => if_neg (by simp [h x hx])

end Expr

end Reckoner
