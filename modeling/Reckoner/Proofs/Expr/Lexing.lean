import Reckoner.Proofs.Double.Layout
import Reckoner.Proofs.Expr.Rendering

/-!
# The tokens of a rendered tree

The text of a tree is cut back into the terminals from which it was made: rendered terminals never
merge, since what follows a number is the end, a blank or a parenthesis.

* `Expr.lexes_description`: the description of a tree whose numbers are finite has the terminals of
  the tree with its signs spelled out.
* `Expr.breaksOff_description`: the description of any other tree has terminals of that kind up to
  the first letter that begins `inf` or `nan`, and that letter begins no token.
-/

namespace Reckoner

/-- Wherever a piece of text stands in front of `rest`, it is cut into tokens with these
terminals, and `rest` is cut apart from it. -/
def Lexes (piece : Text) (ks : List Terminal) (rest : Text) : Prop :=
  ∀ s p s', ∃ tokens : List Token, tokens.map (·.terminal) = ks ∧
    (Cursor.mk s p (piece ++ rest)).tokens =
      tokens ++ (Cursor.mk s' (p + piece.length) rest).tokens

namespace Lexes

variable {t u r : Text} {js ks : List Terminal}

theorem nil : Lexes [] [] r := fun s p s' => ⟨[], rfl, Cursor.tokens_mk s s' p r⟩

theorem append (ht : Lexes t js (u ++ r)) (hu : Lexes u ks r) : Lexes (t ++ u) (js ++ ks) r := by
  intro s p s'
  obtain ⟨front, hfront, h⟩ := ht s p s
  obtain ⟨back, hback, h'⟩ := hu s (p + t.length) s'
  refine ⟨front ++ back, by rw [List.map_append, hfront, hback], ?_⟩
  rw [List.append_assoc, h, h', List.append_assoc, List.length_append, Nat.add_assoc]

theorem cons {c : CodePoint} {k : Terminal} (hc : Lexes [c] [k] (t ++ r)) (ht : Lexes t ks r) :
    Lexes (c :: t) (k :: ks) r :=
  append hc ht

/-- A character that is a terminal is one token, whatever is behind it. -/
theorem of_terminal? {c : CodePoint} {k : Terminal} (h : c.terminal? = some k)
    (hf : k.isFinish = false) : Lexes [c] [k] r :=
  fun _ p s' => ⟨[⟨p, k⟩], rfl, Cursor.tokens_terminal s' h hf⟩

theorem of_isBlank {c : CodePoint} (h : c.isBlank = true) : Lexes [c] [] r :=
  fun _ _ s' => ⟨[], rfl, Cursor.tokens_blank s' h⟩

theorem symbol (o : Operator) : Lexes [.scalar o.symbol] [.operator o] r :=
  of_terminal? (by cases o <;> rfl) rfl

theorem sign (s : Sign) : Lexes [.scalar s.symbol] [.operator s.operator] r := by
  rw [← s.symbol_operator]
  exact symbol s.operator

theorem leftParen : Lexes [.scalar '('] [.leftParen] r := of_terminal? rfl rfl

theorem rightParen : Lexes [.scalar ')'] [.rightParen] r := of_terminal? rfl rfl

/-- An operator with a blank on each side is one token. -/
theorem operator (o : Operator) : Lexes (Text.ofChars [' ', o.symbol, ' ']) [.operator o] r :=
  append (of_isBlank rfl) (cons (symbol o) (of_isBlank rfl))

/-- A literal is one token, unless what is behind it goes on with it. -/
theorem literal (l : Literal) (hr : r.StopsNumber) :
    Lexes (Text.ofChars l.text) [.number l.value] r := by
  intro s p s'
  refine ⟨[⟨p, .number l.value⟩], rfl, ?_⟩
  rw [Text.length_ofChars]
  exact Cursor.tokens_literal s' l hr

/-- A finite number without a sign is one token, unless what is behind it goes on with it. -/
theorem number {x : Double} (hf : x.isFinite = true) (hs : x.isSignSet = false)
    (hr : r.StopsNumber) : Lexes x.text [.number x] r := by
  cases x with
  | finite s a =>
    obtain rfl : s = false := hs
    obtain ⟨l, hl, hvalue⟩ := Double.exists_literal a
    have htext : (Double.finite false a).text = Text.ofChars l.text := congrArg Text.ofChars hl
    rw [htext, ← hvalue]
    exact literal l hr
  | infinite => cases hf
  | nan => cases hf

/-- The terminals of a text that is cut into tokens up to its end. -/
theorem terminals_eq (h : Lexes t ks []) : t.terminals = ks ++ [.finish] := by
  obtain ⟨tokens, htokens, h⟩ := h 0 0 0
  rw [List.append_nil, Cursor.tokens_nil] at h
  rw [Text.terminals, Text.tokens, Cursor.ofText, h, List.map_append, htokens]
  rfl

end Lexes

namespace Expr

variable {r : Text}

/-- **The text of a tree with finite numbers** is cut into the terminals of the tree, its signs
spelled out. -/
theorem lexes_description (e : Expr) (hf : ∀ x ∈ e.leaves, x.isFinite = true)
    (hr : r.StopsNumber) : Lexes e.description e.spelled.terminals r := by
  induction e generalizing r with
  | number x =>
    have hx : x.isFinite = true := hf x List.mem_cons_self
    obtain ⟨hs, h⟩ | ⟨hs, h⟩ := ofSigned_cases x
    -- the hyphen is a token of its own, and the opposite number is the token behind it
    · rw [spelled, substitute, h, description, Double.text_of_isSignSet hs]
      refine .cons (.sign .minus) (.number ?_ (Double.isSignSet_neg hs) hr)
      rw [Double.isFinite_neg, hx]
    · rw [spelled, substitute, h]
      exact .number hx hs hr
  | signed s e ih => exact .cons (.sign s) (ih hf hr)
  | binary o l r' ihl ihr =>
    obtain ⟨hl, hr'⟩ := List.forall_mem_append.mp hf
    have hright : Lexes (Text.ofChars [' ', o.symbol, ' '] ++ r'.description)
        ([.operator o] ++ r'.spelled.terminals) r := .append (.operator o) (ihr hr' hr)
    rw [description, List.append_assoc]
    exact .append (ihl hl (.cons rfl _)) hright
  | grouping e ih => exact .cons .leftParen (.append (ih hf (.cons rfl _)) .rightParen)
  | parsed e ih => exact ih hf hr

/-- The terminals of the text of a tree with finite numbers. -/
theorem terminals_description (e : Expr) (hf : ∀ x ∈ e.leaves, x.isFinite = true) :
    e.description.terminals = e.spelled.terminals ++ [.finish] :=
  (e.lexes_description hf .nil).terminals_eq

end Expr

/-! ### Numbers that are not finite -/

/-- The letters that begin the texts of the infinities and of NaN. -/
def Double.specialInitials : Text := [.scalar 'i', .scalar 'n']

/-- A finite number is written without any of these letters. -/
theorem Double.not_mem_specialInitials {x : Double} (hf : x.isFinite = true) :
    ∀ c ∈ x.text, c ∉ specialInitials := by
  have hmagnitude : ∀ a : Fin ordinals, ∀ c ∈ Text.ofChars (magnitudeText a),
      c ∉ specialInitials := by
    intro a c hc hspecial
    obtain ⟨l, hl, -⟩ := exists_literal a
    rw [hl] at hc
    refine l.digitClass_ne_other c hc ?_
    simp only [specialInitials, List.mem_cons, List.not_mem_nil, or_false] at hspecial
    rcases hspecial with rfl | rfl <;> rfl
  cases x with
  | finite s a =>
    intro c hc
    cases s with
    | false => exact hmagnitude a c hc
    | true =>
      rcases List.mem_cons.mp hc with rfl | hc
      · decide
      · exact hmagnitude a c hc
  | infinite => cases hf
  | nan => cases hf

/-- A text **breaks off** within given terminals: up to the first letter that begins a special
number it is cut into the first of them, whatever is behind that letter. -/
def BreaksOff (t : Text) (ks : List Terminal) : Prop :=
  ∃ before c after js, t = before ++ c :: after ∧ js <+: ks ∧ c ∈ Double.specialInitials ∧
    (∀ d ∈ before, d ∉ Double.specialInitials) ∧ ∀ rest, Lexes before js (c :: rest)

namespace BreaksOff

variable {t : Text} {ks : List Terminal}

theorem append_right (h : BreaksOff t ks) (u : Text) (js : List Terminal) :
    BreaksOff (t ++ u) (ks ++ js) := by
  obtain ⟨before, c, after, front, rfl, hfront, hc, hbefore, hlexes⟩ := h
  refine ⟨before, c, after ++ u, front, ?_, ?_, hc, hbefore, hlexes⟩
  · rw [List.append_assoc, List.cons_append]
  · exact hfront.trans (List.prefix_append ks js)

theorem append_left {u : Text} {js : List Terminal} (hu : ∀ d ∈ u, d ∉ Double.specialInitials)
    (hlexes : ∀ rest, Lexes u js rest) (h : BreaksOff t ks) : BreaksOff (u ++ t) (js ++ ks) := by
  obtain ⟨before, c, after, front, rfl, hfront, hc, hbefore, hbeforeLexes⟩ := h
  refine ⟨u ++ before, c, after, js ++ front, ?_, ?_, hc, ?_, fun rest => ?_⟩
  · rw [List.append_assoc]
  · exact (List.prefix_append_right_inj js).mpr hfront
  · exact List.forall_mem_append.mpr ⟨hu, hbefore⟩
  · exact (hlexes _).append (hbeforeLexes rest)

theorem cons {c : CodePoint} {k : Terminal} (hc : c ∉ Double.specialInitials)
    (hlexes : ∀ rest, Lexes [c] [k] rest) (h : BreaksOff t ks) : BreaksOff (c :: t) (k :: ks) :=
  append_left (List.forall_mem_singleton.mpr hc) hlexes h

theorem of_head {c : CodePoint} (hc : c ∈ Double.specialInitials) (t : Text)
    (ks : List Terminal) : BreaksOff (c :: t) ks :=
  ⟨[], c, t, [], rfl, List.nil_prefix, hc, nofun, fun _ => .nil⟩

theorem number {x : Double} (hx : x.isFinite = false) :
    BreaksOff x.text (Expr.number x).spelled.terminals := by
  cases x with
  | finite => cases hx
  | infinite s =>
    cases s with
    | false => exact of_head (by decide) _ _
    | true => exact cons (by decide) (fun _ => .sign .minus) (of_head (by decide) _ _)
  | nan => exact of_head (by decide) _ _

end BreaksOff

namespace Expr

theorem not_mem_specialInitials {e : Expr} (hf : ∀ x ∈ e.leaves, x.isFinite = true) :
    ∀ c ∈ e.description, c ∉ Double.specialInitials := by
  induction e with
  | number x => exact Double.not_mem_specialInitials (hf x List.mem_cons_self)
  | signed s e ih => exact List.forall_mem_cons.mpr ⟨by cases s <;> decide, ih hf⟩
  | binary o l r ihl ihr =>
    obtain ⟨hl, hr⟩ := List.forall_mem_append.mp hf
    refine List.forall_mem_append.mpr ⟨List.forall_mem_append.mpr ⟨ihl hl, ?_⟩, ihr hr⟩
    cases o <;> decide
  | grouping e ih =>
    refine List.forall_mem_cons.mpr ⟨by decide, List.forall_mem_append.mpr ⟨ih hf, ?_⟩⟩
    decide
  | parsed e ih => exact ih hf

/-- **The text of a tree with a number that is not finite** breaks off. -/
theorem breaksOff_description {e : Expr} (h : ∃ x ∈ e.leaves, x.isFinite = false) :
    BreaksOff e.description e.spelled.terminals := by
  induction e with
  | number x =>
    obtain ⟨y, hy, hx⟩ := h
    obtain rfl := List.mem_singleton.mp hy
    exact .number hx
  | signed s e ih => exact .cons (by cases s <;> decide) (fun _ => .sign s) (ih h)
  | binary o l r ihl ihr =>
    by_cases hl : ∃ x ∈ l.leaves, x.isFinite = false
    · rw [description, List.append_assoc]
      exact (ihl hl).append_right _ _
    · have hf : ∀ x ∈ l.leaves, x.isFinite = true := by simpa using hl
      have hr : ∃ x ∈ r.leaves, x.isFinite = false := by
        obtain ⟨x, hx, hfinite⟩ := h
        rcases List.mem_append.mp hx with hx | hx
        · exact absurd ⟨x, hx, hfinite⟩ hl
        · exact ⟨x, hx, hfinite⟩
      rw [description, spelled, substitute, terminals, List.append_cons]
      refine .append_left (List.forall_mem_append.mpr ⟨not_mem_specialInitials hf, ?_⟩)
        (fun rest => ?_) (ihr hr)
      · cases o <;> decide
      -- a number at the end of the left operand is stopped by the blank behind it
      · exact .append (l.lexes_description hf (.cons rfl _)) (.operator o)
  | grouping e ih =>
    exact .cons (by decide) (fun _ => .leftParen) ((ih h).append_right _ _)
  | parsed e ih => exact ih h

end Expr

end Reckoner
