import Reckoner.Proofs.Parser.Levels

/-!
# What a reading gives

A goal that is read gives a canonical tree whose terminals are exactly what was read over, and it
stops where the goal cannot go on (`derives_of_run`). The invariant of a repetition is that the
tree built so far is canonical itself, and that its last operand was read to its end
(`Goal.IsReady`).
-/

namespace Reckoner.Parser

namespace Goal

/-- The terminals of the tree that a repetition goes on from. -/
def before : Goal → List Terminal
  | sumTail left | productTail left => left.terminals
  | _ => []

/-- A repetition is **ready** at a parser when the tree built so far is one that the goal can give,
and its last operand does not go on here. -/
def IsReady : Goal → Parser → Prop
  | sumTail left, p => left.isCanonical ∧ product.continues p.current.terminal = false
  | productTail left, _ => left.isCanonical ∧ left.isSum = false
  | _, _ => True

end Goal

/-- A goal **derives** a tree between two parsers: what the goal began with and what was read over
are together the terminals of the tree. -/
structure Derives (g : Goal) (p : Parser) (e : Expr) (q : Parser) : Prop where
  canonical : e.isCanonical = true
  admitted : g.admits e = true
  stopped : g.continues q.current.terminal = false
  path : ∃ ts, Path p ts q ∧ g.before ++ ts = e.terminals

namespace Level

variable (l : Level)

@[simp] theorem before_operand : l.operand.before = [] := by cases l <;> rfl

@[simp] theorem before_goal : l.goal.before = [] := by cases l <;> rfl

@[simp] theorem before_tail (left : Expr) : (l.tail left).before = left.terminals := by
  cases l <;> rfl

theorem isReady_operand (p : Parser) : l.operand.IsReady p := by cases l <;> trivial

theorem isReady_tail_iff {left : Expr} {p : Parser} :
    (l.tail left).IsReady p ↔ left.isCanonical = true ∧ l.goal.admits left = true ∧
      l.operand.continues p.current.terminal = false := by
  cases l <;> simp [tail, goal, operand, Goal.IsReady, Goal.admits, Goal.continues]

end Level

theorem Derives.isReady_tail {l : Level} {p q : Parser} {left : Expr}
    (h : Derives l.operand p left q) : (l.tail left).IsReady q :=
  l.isReady_tail_iff.mpr ⟨h.canonical, l.admits_goal_of_operand h.admitted, h.stopped⟩

/-- **Soundness of the rules**, for every goal and from every parser. -/
theorem derives_of_run {g : Goal} {p : Parser} (hg : g.IsReady p) {e : Expr} {q : Parser}
    (h : p.run g = (.ok e, q)) : Derives g p e q := by
  induction g, p using run_induction generalizing e q with
  | goal l p hop htail =>
    rw [run_goal] at h
    obtain ⟨left, m, hleft, hm⟩ := andThen_eq_ok h
    have d₁ := hop (l.isReady_operand p) hleft
    have d₂ := htail left m (remaining_le_of_run hleft) d₁.isReady_tail hm
    obtain ⟨ts₁, hp₁, ht₁⟩ := d₁.path
    obtain ⟨ts₂, hp₂, ht₂⟩ := d₂.path
    rw [l.before_operand, List.nil_append] at ht₁
    rw [l.before_tail, ← ht₁] at ht₂
    refine ⟨d₂.canonical, ?_, ?_, ts₁ ++ ts₂, Path.append_iff.mpr ⟨m, hp₁, hp₂⟩, ?_⟩
    · rw [← l.admits_tail left]
      exact d₂.admitted
    · rw [← l.continues_tail left]
      exact d₂.stopped
    · rw [l.before_goal, List.nil_append, ht₂]
  | tail l left p hop htail =>
    obtain ⟨hcan, hadm, hcont⟩ := l.isReady_tail_iff.mp hg
    rw [run_tail] at h
    rcases choose_eq_ok l.select_finish h with ⟨hs, hdone⟩ | ⟨o, hp, hs, hc, hmore⟩
    · -- the chain ends: nothing is read over
      cases hdone
      refine ⟨hcan, ?_, ?_, [], .refl p, ?_⟩
      · rw [l.admits_tail, hadm]
      · rw [l.continues_tail, l.continues_goal, hcont, hs]
        rfl
      · rw [l.before_tail, List.append_nil]
    -- one more operand: the longer tree is ready again, since its right operand was read to its end
    · obtain ⟨hk, ho⟩ := l.select_eq_some.mp hs
      obtain ⟨right, m, hright, hm⟩ := andThen_eq_ok hmore
      have hlt := remaining_next_lt hp
      have d₁ := hop p.next hlt (l.isReady_operand _) hright
      have hready : (l.tail (.binary o left right)).IsReady m := by
        refine l.isReady_tail_iff.mpr ⟨?_, l.admits_goal_binary ho left right, d₁.stopped⟩
        rw [l.isCanonical_binary ho, hadm, d₁.admitted, hcan, d₁.canonical]
        rfl
      have d₂ := htail _ m (Nat.lt_of_le_of_lt (remaining_le_of_run hright) hlt) hready hm
      obtain ⟨ts₁, hp₁, ht₁⟩ := d₁.path
      obtain ⟨ts₂, hp₂, ht₂⟩ := d₂.path
      rw [l.before_operand, List.nil_append] at ht₁
      rw [l.before_tail, Expr.terminals, ← ht₁] at ht₂
      refine ⟨d₂.canonical, ?_, ?_, .operator o :: (ts₁ ++ ts₂), ?_, ?_⟩
      · rw [l.admits_tail, ← l.admits_tail (.binary o left right)]
        exact d₂.admitted
      · rw [l.continues_tail, ← l.continues_tail (.binary o left right)]
        exact d₂.stopped
      · exact Path.cons_iff.mpr ⟨hk, hp, hc, Path.append_iff.mpr ⟨m, hp₁, hp₂⟩⟩
      · rw [l.before_tail, ← ht₂, List.append_assoc, List.cons_append]
  | signed p hsigned hprimary =>
    rw [run_signed] at h
    rcases choose_eq_ok rfl h with ⟨-, h⟩ | ⟨o, hp, hs, hc, h⟩
    · obtain ⟨hcan, hadm, -, hpath⟩ := hprimary trivial h
      refine ⟨hcan, ?_, rfl, hpath⟩
      cases e <;> first | rfl | cases hadm
    · obtain ⟨hk, ho⟩ := Level.additive.select_eq_some.mp hs
      obtain ⟨s, rfl⟩ := Operator.exists_sign ho
      rw [Sign.asSign_operator] at h
      obtain ⟨operand, m, hoperand, hm⟩ := andThen_eq_ok h
      cases hm
      obtain ⟨hcan, hadm, -, ts, hpath, hts⟩ := hsigned _ (remaining_next_lt hp) trivial hoperand
      refine ⟨?_, rfl, rfl, .operator s.operator :: ts, Path.cons_iff.mpr ⟨hk, hp, hc, hpath⟩, ?_⟩
      · rw [Expr.isCanonical, hcan, Bool.and_true]
        exact hadm
      · rw [Expr.terminals, ← hts]
        rfl
  | primary p hsum =>
    rw [run_primary] at h
    rcases choose_eq_ok rfl h with ⟨-, h⟩ | ⟨x, hp, hs, hc, h⟩
    · rcases choose_eq_ok rfl h with ⟨-, h⟩ | ⟨_, hp, hs, hc, h⟩
      · cases h
      · obtain ⟨content, m, hcontent, h⟩ := andThen_eq_ok h
        rcases choose_eq_ok rfl h with ⟨-, h⟩ | ⟨_, hm, hs', hc', h⟩
        · cases h
        · cases h
          obtain ⟨hcan, -, -, ts, hpath, hts⟩ := hsum _ (remaining_next_lt hp) trivial hcontent
          have hclose : Path m [.rightParen] m.next :=
            Path.cons_iff.mpr ⟨eq_rightParen_of_ofKind? hs', hm, hc', .refl _⟩
          refine ⟨hcan, rfl, rfl, .leftParen :: (ts ++ [.rightParen]), ?_, ?_⟩
          · exact Path.cons_iff.mpr ⟨eq_leftParen_of_ofKind? hs, hp, hc,
              Path.append_iff.mpr ⟨m, hpath, hclose⟩⟩
          · rw [Expr.terminals, ← hts]
            rfl
    · cases h
      exact ⟨rfl, rfl, rfl, [.number x],
        Path.cons_iff.mpr ⟨eq_number_of_number? hs, hp, hc, .refl _⟩, rfl⟩

end Reckoner.Parser
