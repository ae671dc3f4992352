import Mathlib.Data.Bool.AllAny
import Mathlib.Data.List.TakeDrop
import Mathlib.Data.List.TakeWhile
import Mathlib.Tactic.IntervalCases
import Reckoner.Double.Spelling
import Reckoner.Proofs.Token.Literal

/-!
# Literals as people spell them

The lenient reader of doubles takes more texts than there are literals: words, digits of all
scripts, low lines between digits, white space around the number. It takes all literals, too, and
gives their value (`Double.ofText?_literal`), so no literal fails to be converted.
-/

namespace Reckoner

/-! ### The characters of literals -/

namespace Literal

/-- The digits of literals. -/
def digits : List Char := "0123456789".toList

/-- The characters that literals are made of. -/
def alphabet : List Char := digits ++ ".eE+-".toList

theorem mem_digits_of_isDigit {c : Char} (h : c.isDigit = true) : c ∈ digits := by
  obtain ⟨hlow, hhigh⟩ := Char.isDigit_iff_toNat.mp h
  rw [← Char.ofNat_toNat c]
  change 48 ≤ c.toNat at hlow
  change c.toNat ≤ 57 at hhigh
  generalize c.toNat = n at hlow hhigh
  interval_cases n <;> decide

theorem mem_alphabet_of_mem (ds : Digits) : ∀ c ∈ ds.1, c ∈ alphabet := fun c hc =>
  List.mem_append_left _ (mem_digits_of_isDigit (ds.2.2 c hc))

theorem Exponent.mem_alphabet (e : Exponent) : ∀ c ∈ e.text, c ∈ alphabet := by
  have hletter : ∀ capital : Bool, (if capital then 'E' else 'e') ∈ alphabet := by decide
  have hsign : ∀ sign : Sign, sign.symbol ∈ alphabet := by
    intro sign
    cases sign <;> decide
  refine List.forall_mem_cons.mpr ⟨hletter e.capital, List.forall_mem_append.mpr ⟨?_, ?_⟩⟩
  · cases e.sign with
    | none => nofun
    | some sign => exact List.forall_mem_singleton.mpr (hsign sign)
  · exact mem_alphabet_of_mem e.digits

theorem mem_alphabet (l : Literal) : ∀ c ∈ l.text, c ∈ alphabet := by
  obtain ⟨whole, fraction, exponent⟩ := l
  refine List.forall_mem_append.mpr
    ⟨mem_alphabet_of_mem whole, List.forall_mem_append.mpr ⟨?_, ?_⟩⟩
  · cases fraction with
    | none => nofun
    | some ds => exact List.forall_mem_cons.mpr ⟨by decide, mem_alphabet_of_mem ds⟩
  · cases exponent with
    | none => nofun
    | some e => exact e.mem_alphabet

/-- The exponent with a small letter. -/
def Exponent.small (e : Exponent) : Exponent := { e with capital := false }

/-- The literal with a small letter in front of its exponent. -/
def small (l : Literal) : Literal := { l with exponent := l.exponent.map Exponent.small }

theorem map_toLower_digits (ds : Digits) : ds.1.map Char.toLower = ds.1 := by
  have hlower : ∀ c ∈ digits, c.toLower = c :=
    List.all_iff_forall_prop.mp (by decide)
  calc ds.1.map Char.toLower
      = ds.1.map id := List.map_congr_left fun c hc =>
          hlower c (mem_digits_of_isDigit (ds.2.2 c hc))
    _ = ds.1 := List.map_id _

theorem Exponent.map_toLower_text (e : Exponent) : e.text.map Char.toLower = e.small.text := by
  have hletter : ∀ capital : Bool, (if capital then 'E' else 'e').toLower = 'e' := by decide
  have hsign : (e.sign.map Sign.symbol).toList.map Char.toLower =
      (e.sign.map Sign.symbol).toList := by
    rcases e.sign with _ | _ | _ <;> rfl
  rw [text, List.map_cons, hletter, List.map_append, hsign, map_toLower_digits]
  rfl

theorem map_toLower_text (l : Literal) : l.text.map Char.toLower = l.small.text := by
  have hfraction : l.fractionText.map Char.toLower = l.small.fractionText := by
    obtain ⟨whole, _ | ds, exponent⟩ := l
    · rfl
    · exact congrArg (List.cons '.') (map_toLower_digits ds)
  have hexponent : l.exponentText.map Char.toLower = l.small.exponentText := by
    obtain ⟨whole, fraction, _ | e⟩ := l
    · rfl
    · exact e.map_toLower_text
  rw [text, List.map_append, List.map_append, map_toLower_digits, hfraction, hexponent]
  rfl

end Literal

/-! ### The reader -/

namespace Spelling

variable {cs : List Char} {t : Text}

/-- Text in which nothing is padding is not trimmed. -/
theorem trimmed_eq_self {surrounds : CodePoint → Bool} (h : ∀ c ∈ t, surrounds c = false) :
    trimmed surrounds t = t := by
  have drop : ∀ u : Text, (∀ c ∈ u, surrounds c = false) → u.dropWhile surrounds = u := by
    intro u hu
    rw [List.dropWhile_eq_self_iff]
    intro hpos
    simp [hu _ (List.getElem_mem hpos)]
  have hreverse : ∀ c ∈ t.reverse, surrounds c = false := fun c hc =>
    h c (List.mem_reverse.mp hc)
  rw [trimmed, drop t h, drop _ hreverse, List.reverse_reverse]

theorem mapM_plain?_ofChars (h : ∀ c ∈ cs, c ∈ Literal.alphabet) :
    (Text.ofChars cs).mapM plain? = some (cs.map Char.toLower) := by
  have hplain : ∀ c ∈ Literal.alphabet, plain? (.scalar c) = some c.toLower :=
    List.all_iff_forall_prop.mp (by decide)
  induction cs with
  | nil => rfl
  | cons c cs ih =>
    obtain ⟨hc, hcs⟩ := List.forall_mem_cons.mp h
    rw [Text.ofChars_cons, List.mapM_cons, hplain c hc, ih hcs]
    rfl

/-- The characters of a literal are its own, but for a capital letter. -/
theorem characters?_ofChars (h : ∀ c ∈ cs, c ∈ Literal.alphabet) :
    characters? isPadding (Text.ofChars cs) = some (cs.map Char.toLower) := by
  have hpadding : ∀ c ∈ Literal.alphabet, isPadding (.scalar c) = false :=
    List.all_iff_forall_prop.mp (by decide)
  have htrimmed : trimmed isPadding (Text.ofChars cs) = Text.ofChars cs := by
    refine trimmed_eq_self fun c hc => ?_
    obtain ⟨d, hd, rfl⟩ := List.mem_map.mp hc
    exact hpadding d (h d hd)
  rw [characters?, htrimmed, mapM_plain?_ofChars h]

/-- Without low lines there is nothing to close up. -/
theorem closeUp?_eq_some (b : Bool) (h : ∀ c ∈ cs, c ≠ '_') : closeUp? b cs = some cs := by
  induction cs generalizing b with
  | nil => rfl
  | cons c cs ih =>
    obtain ⟨hc, hcs⟩ := List.forall_mem_cons.mp h
    unfold closeUp?
    split
    · next heq => cases heq
    · next heq =>
      cases heq
      exact absurd rfl hc
    · next heq =>
      cases heq
      rw [if_neg hc, ih _ hcs]
      rfl

theorem natural?_digits (ds : Digits) : natural? ds.1 = some ds.value := by
  have hall : ds.1.all Char.isDigit = true := List.all_eq_true.mpr ds.2.2
  rw [natural?, if_pos hall]
  rfl

/-- Digits are read as a number, behind a sign or without one. -/
theorem signedNatural?_digits (sign : Option Sign) (ds : Digits) :
    signedNatural? ((sign.map Sign.symbol).toList ++ ds.1) =
      some (if sign = some .minus then -(ds.value : Int) else ds.value) := by
  have hvalue := natural?_digits ds
  obtain ⟨cs, hne, hdigits⟩ := ds
  cases cs with
  | nil => exact absurd rfl hne
  | cons c cs =>
    have hc := hdigits c List.mem_cons_self
    have hbare : signedNatural? (c :: cs) = (natural? (c :: cs)).map fun n => (n : Int) := by
      unfold signedNatural?
      split
      · next heq =>
        cases heq
        cases hc
      · next heq =>
        cases heq
        cases hc
      · next heq =>
        cases heq
        rfl
      · next heq => cases heq
    rcases sign with _ | _ | _
    · exact hbare.trans (by rw [hvalue]; rfl)
    · have hplus : signedNatural? ('+' :: c :: cs) =
          (natural? (c :: cs)).map fun n => (n : Int) := rfl
      exact hplus.trans (by rw [hvalue]; rfl)
    · have hminus : signedNatural? ('-' :: c :: cs) =
          (natural? (c :: cs)).map fun n => -(n : Int) := rfl
      exact hminus.trans (by rw [hvalue]; rfl)

theorem exponent?_small (l : Literal) :
    exponent? l.small.exponentText = some l.numeral.exponent := by
  obtain ⟨whole, fraction, _ | e⟩ := l
  · rfl
  · exact signedNatural?_digits e.sign e.digits

/-- Digits are taken as far as they go. -/
theorem span_isDigit {ds r : List Char} (hds : ∀ c ∈ ds, c.isDigit = true)
    (hr : ∀ c ∈ r.head?, c.isDigit = false) : (ds ++ r).span Char.isDigit = (ds, r) := by
  have hstop : r.takeWhile Char.isDigit = [] ∧ r.dropWhile Char.isDigit = r := by
    cases r with
    | nil => exact ⟨rfl, rfl⟩
    | cons c r =>
      have hc := hr c (Option.mem_some_self c)
      exact ⟨by rw [List.takeWhile_cons, hc]; rfl, by rw [List.dropWhile_cons, hc]; rfl⟩
  rw [List.span_eq_takeWhile_dropWhile, List.takeWhile_append_of_pos hds,
    List.dropWhile_append_of_pos hds, hstop.1, hstop.2, List.append_nil]

/-- The reader finds the parts of a literal. -/
theorem decimal?_small (l : Literal) :
    decimal? l.small.text = some l.numeral.decimal := by
  have hexponent := exponent?_small l
  have hhead : ∀ c ∈ l.small.exponentText.head?, c.isDigit = false ∧ c ≠ '.' := by
    obtain ⟨whole, fraction, _ | e⟩ := l
    · nofun
    · rintro _ ⟨⟩
      exact ⟨rfl, nofun⟩
  obtain ⟨whole, fraction, exponent⟩ := l
  have hwhole : whole.1.isEmpty = false := List.isEmpty_eq_false_iff.mpr whole.2.1
  cases fraction with
  | none =>
    have htext : (Literal.small ⟨whole, none, exponent⟩).text =
        whole.1 ++ (Literal.small ⟨whole, none, exponent⟩).exponentText := rfl
    have hspan := span_isDigit whole.2.2 fun c hc => (hhead c hc).1
    rw [htext, decimal?, hspan]
    dsimp only
    split
    · next heq =>
      rw [heq] at hhead
      exact absurd rfl (hhead '.' rfl).2
    · rw [hwhole, Bool.false_and, if_neg Bool.false_ne_true, hexponent]
      rfl
  | some ds =>
    have htext : (Literal.small ⟨whole, some ds, exponent⟩).text =
        whole.1 ++ '.' :: (ds.1 ++ (Literal.small ⟨whole, some ds, exponent⟩).exponentText) := rfl
    have hspan := span_isDigit ds.2.2 fun c hc => (hhead c hc).1
    have hpoint : ∀ c ∈ ('.' :: (ds.1 ++
        (Literal.small ⟨whole, some ds, exponent⟩).exponentText)).head?, c.isDigit = false := by
      rintro _ ⟨⟩
      rfl
    rw [htext, decimal?, span_isDigit whole.2.2 hpoint]
    dsimp only
    split
    · next heq =>
      cases heq
      rw [hspan]
      dsimp only
      rw [hwhole, Bool.false_and, if_neg Bool.false_ne_true, hexponent]
      rfl
    · next hne => exact absurd rfl (hne _)

end Spelling

namespace Double

/-- **No literal fails to be converted**: the reader of doubles takes it and gives its value. -/
theorem ofText?_literal (payload : Nat) (l : Literal) :
    ofText? payload (Text.ofChars l.text) = some l.value := by
  have hclose : ∀ c ∈ l.small.text, c ≠ '_' := by
    have halphabet : ∀ c ∈ Literal.alphabet, c ≠ '_' :=
      List.all_iff_forall_prop.mp (by decide)
    exact fun c hc => halphabet c (l.small.mem_alphabet c hc)
  have hcharacters : ofCharacters? payload l.small.text = some l.value := by
    obtain ⟨c, cs, htext, hc⟩ := l.small.exists_text_eq_cons
    have hdecimal := Spelling.decimal?_small l
    rw [htext] at hdecimal ⊢
    -- a digit begins neither a sign nor a word
    have hne : ∀ d : Char, d.isDigit = false → c ≠ d := by
      rintro d hd rfl
      rw [hc] at hd
      cases hd
    have hinfinity : Spelling.isInfinity (c :: cs) = false := by
      have hi := hne 'i' rfl
      simp [Spelling.isInfinity, hi]
    have hnan : c :: cs ≠ "nan".toList := fun h => hne 'n' rfl (List.cons.inj h).1
    have hunsigned : ofUnsigned? false payload (c :: cs) = some l.value := by
      rw [ofUnsigned?, hinfinity, if_neg Bool.false_ne_true, if_neg hnan, hdecimal]
      rfl
    unfold ofCharacters?
    split
    · next heq => exact absurd (List.cons.inj heq).1 (hne '-' rfl)
    · next heq => exact absurd (List.cons.inj heq).1 (hne '+' rfl)
    · exact hunsigned
  rw [ofText?, Spelling.characters?_ofChars l.mem_alphabet, l.map_toLower_text]
  dsimp only [bind, Option.bind]
  rw [Spelling.closeUp?_eq_some false hclose]
  exact hcharacters

end Double

end Reckoner
