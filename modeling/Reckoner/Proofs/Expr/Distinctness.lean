import Mathlib.Data.List.Basic
import Reckoner.Proofs.Expr.Numbers
import Reckoner.Proofs.Expr.RoundTrip

/-!
# Trees with the same description

The description of a parsed tree determines the tree (`Expr.eq_of_description`), although it adds no
parentheses and an infinity in it cannot be read again.

An infinity is written with letters that nothing else is written with. So a text can be *filled*:
the letters for an infinity are replaced by the text of a finite number (`Text.filled`), and the
text of a tree turns into that of the tree with this number in place of its infinities
(`Expr.description_filled`). The text of such a tree parses to it. Two trees with one description are
equal when filled, whatever they are filled with, and two different numbers to fill them with tell
infinities from everything else.
-/

namespace Reckoner

/-! ### Filling -/

/-- A number with `y` in place of the infinity. -/
def Double.filled (x y : Double) : Double := if x = .infinite false then y else x

/-- The letters that the infinity is written with. -/
def Double.infinityLetters : Text := "inf"

/-- What is written for a character of the text of a number: the text of `y` for the first letter of
the infinity, and nothing for its other letters. -/
def CodePoint.filled (c : CodePoint) (y : Double) : Text :=
  if c = .scalar 'i' then y.text else if c ∈ Double.infinityLetters then [] else [c]

/-- A text with the text of `y` in place of the letters for each infinity. -/
def Text.filled (t : Text) (y : Double) : Text := t.flatMap (·.filled y)

/-- A tree with `y` in place of its infinities. -/
def Expr.filled (e : Expr) (y : Double) : Expr := e.substitute fun x => .number (x.filled y)

namespace Text

variable {y : Double} {t u : Text}

theorem filled_append : (t ++ u).filled y = t.filled y ++ u.filled y := List.flatMap_append

theorem filled_eq_self (h : ∀ c ∈ t, c ∉ Double.infinityLetters) : t.filled y = t := by
  have hkept : ∀ c ∈ t, c.filled y = [c] := by
    intro c hc
    have hi : c ≠ .scalar 'i' := fun hi => h c hc (hi ▸ List.mem_cons_self)
    rw [CodePoint.filled, if_neg hi, if_neg (h c hc)]
  rw [filled, List.flatMap_congr hkept]
  exact List.flatMap_singleton' t

end Text

namespace Double

variable {x y : Double}

/-- A magnitude is written without the letters of the infinity. -/
theorem not_mem_infinityLetters (a : Fin ordinals) :
    ∀ c ∈ (finite false a).text, c ∉ infinityLetters := by
  obtain ⟨l, hl, -⟩ := exists_literal a
  have hother : ∀ c ∈ infinityLetters, c.digitClass = .other := by decide
  intro c hc hletter
  have htext : (finite false a).text = Text.ofChars l.text := congrArg Text.ofChars hl
  rw [htext] at hc
  exact l.digitClass_ne_other c hc (hother c hletter)

theorem text_filled (hx : x.IsUnsigned) : (x.filled y).text = x.text.filled y := by
  cases x with
  | finite s a =>
    obtain rfl : s = false := hx.not_isSignSet
    rw [filled, if_neg nofun, Text.filled_eq_self (not_mem_infinityLetters a)]
  | infinite s =>
    obtain rfl : s = false := hx.not_isSignSet
    rw [filled, if_pos rfl]
    exact (List.append_nil y.text).symm
  | nan p => exact absurd rfl (hx.ne_nan p)

/-- Filled with a magnitude, a number is a magnitude. -/
theorem exists_filled_eq (hx : x.IsUnsigned) (a : Fin ordinals) :
    ∃ b, x.filled (finite false a) = finite false b := by
  cases x with
  | finite s b =>
    obtain rfl : s = false := hx.not_isSignSet
    exact ⟨b, if_neg nofun⟩
  | infinite s =>
    obtain rfl : s = false := hx.not_isSignSet
    exact ⟨a, if_pos rfl⟩
  | nan p => exact absurd rfl (hx.ne_nan p)

/-- Two different numbers to fill with tell the infinity from other numbers. -/
theorem injective_filled {y' : Double} (hy : y ≠ y') :
    Function.Injective fun x : Double => (x.filled y, x.filled y') := by
  intro x x' h
  obtain ⟨h, h'⟩ := Prod.ext_iff.mp h
  by_cases hx : x = .infinite false
  · by_cases hx' : x' = .infinite false
    · rw [hx, hx']
    · simp only [filled, if_pos hx, if_neg hx'] at h h'
      exact absurd (h.trans h'.symm) hy
  · by_cases hx' : x' = .infinite false
    · simp only [filled, if_neg hx, if_pos hx'] at h h'
      exact absurd (h.symm.trans h') hy
    · simpa only [filled, if_neg hx, if_neg hx'] using h

end Double

namespace Expr

variable {e f : Expr} {y : Double}

theorem leaves_filled (e : Expr) (y : Double) : (e.filled y).leaves = e.leaves.map (·.filled y) :=
  leaves_substitute (·.filled y) e

theorem blanked_filled (e : Expr) (y : Double) : (e.filled y).blanked = e.blanked :=
  substitute_substitute _ e

/-- **Filling a description fills the tree.** -/
theorem description_filled (he : ∀ x ∈ e.leaves, x.IsUnsigned) :
    (e.filled y).description = e.description.filled y := by
  unfold filled
  induction e with
  | number x => exact Double.text_filled (he x List.mem_cons_self)
  | signed s e ih =>
    rw [substitute, description, ih he, description]
    cases s <;> rfl
  | binary o l r ihl ihr =>
    obtain ⟨hl, hr⟩ := List.forall_mem_append.mp he
    rw [substitute, description, ihl hl, ihr hr, description, Text.filled_append,
      Text.filled_append]
    cases o <;> rfl
  | grouping e ih =>
    have hinner : Text.filled (e.description ++ [.scalar ')']) y =
        e.description.filled y ++ [.scalar ')'] := Text.filled_append
    rw [substitute, description, ih he, ← hinner]
    rfl
  | parsed e ih => exact ih he

/-- A tree filled with a magnitude is what its text parses to. -/
theorem parse_description_filled (he : e.isCanonical = true) (hx : ∀ x ∈ e.leaves, x.IsUnsigned)
    (a : Fin Double.ordinals) :
    parse (e.description.filled (.finite false a)) = .ok (e.filled (.finite false a)) := by
  have hleaves : ∀ x ∈ (e.filled (.finite false a)).leaves, ∃ b, x = .finite false b := by
    rw [leaves_filled, List.forall_mem_map]
    exact fun x hmem => Double.exists_filled_eq (hx x hmem) a
  have hcan : (e.filled (.finite false a)).isCanonical = true := by
    rw [filled, isCanonical_substitute (fun _ => rfl) (fun _ => rfl), he]
  rw [← description_filled hx]
  refine parse_description_eq_self hcan (fun x hmem => ?_) fun x hmem => ?_
  · obtain ⟨b, rfl⟩ := hleaves x hmem
    rfl
  · obtain ⟨b, rfl⟩ := hleaves x hmem
    rfl

/-- **The description determines a canonical tree** whose numbers have no signs and are no NaN. -/
theorem eq_of_description (he : e.isCanonical = true) (hf : f.isCanonical = true)
    (hex : ∀ x ∈ e.leaves, x.IsUnsigned) (hfx : ∀ x ∈ f.leaves, x.IsUnsigned)
    (h : e.description = f.description) : e = f := by
  have hfilled : ∀ a, e.filled (.finite false a) = f.filled (.finite false a) := by
    intro a
    have hparse := parse_description_filled he hex a
    rw [h, parse_description_filled hf hfx a] at hparse
    exact (Except.ok.inj hparse).symm
  have hleaves : ∀ a, e.leaves.map (·.filled (.finite false a)) =
      f.leaves.map (·.filled (.finite false a)) := by
    intro a
    rw [← leaves_filled, hfilled a, leaves_filled]
  -- any two magnitudes will do
  obtain ⟨a, b, hab⟩ : ∃ a b : Fin Double.ordinals, Double.finite false a ≠ .finite false b :=
    ⟨⟨0, by decide⟩, ⟨1, by decide⟩, by decide⟩
  refine eq_of_blanked ?_ ?_
  · rw [← blanked_filled e (.finite false a), hfilled a, blanked_filled]
  · refine List.map_injective_iff.mpr (Double.injective_filled hab) ?_
    rw [← List.zip_map', ← List.zip_map', hleaves a, hleaves b]

end Expr

/-! ### Equal trees -/

/-- The zeros are equal whatever their signs are; no other different numbers are. -/
theorem Double.eq_of_same {x y : Double} (hx : x.isSignSet = false) (hy : y.isSignSet = false)
    (h : x.same y = true) : x = y := by
  cases x <;> cases y <;> simp_all [same, isSignSet]

namespace Expr

theorem same_self (e : Expr) : e.same e = true := by
  induction e with
  | number x => exact x.same_self
  | signed s e ih => simp [same, ih]
  | binary o l r ihl ihr => simp [same, ihl, ihr]
  | grouping e ih => exact ih
  | parsed e ih => exact ih

/-- Where no sign bit is set, only equal trees are the same. -/
theorem eq_of_same {e f : Expr} (he : ∀ x ∈ e.leaves, x.isSignSet = false)
    (hf : ∀ x ∈ f.leaves, x.isSignSet = false) (h : e.same f = true) : e = f := by
  fun_induction same e f with
  | case1 x y =>
    rw [Double.eq_of_same (he x List.mem_cons_self) (hf y List.mem_cons_self) h]
  | case2 s e t f ih =>
    obtain ⟨hs, hsame⟩ := Bool.and_eq_true_iff.mp h
    rw [of_decide_eq_true hs, ih he hf hsame]
  | case3 o l r p l' r' ihl ihr =>
    obtain ⟨hleft, hright⟩ := Bool.and_eq_true_iff.mp h
    obtain ⟨ho, hleft⟩ := Bool.and_eq_true_iff.mp hleft
    obtain ⟨hel, her⟩ := List.forall_mem_append.mp he
    obtain ⟨hfl, hfr⟩ := List.forall_mem_append.mp hf
    rw [of_decide_eq_true ho, ihl hel hfl hleft, ihr her hfr hright]
  | case4 e f ih => rw [ih he hf h]
  | case5 e f ih => rw [ih he hf h]
  | case6 => cases h

end Expr

end Reckoner
