import Reckoner.Proofs.Token.Stream

/-!
# Literals

A literal is how a number is written in an expression: digits, maybe a point and digits, maybe an
exponent. Two readers look at it, one after the other. The scanner of the lexer finds its end
(`Stage.follow?`), and `Numeral.read` then finds its value.

Main statement: a literal that nothing behind it goes on with is one token, whose value is that of
the literal (`Cursor.tokens_literal`).
-/

namespace Reckoner

/-- One or more decimal digits. -/
abbrev Digits := { ds : List Char // ds ≠ [] ∧ ∀ c ∈ ds, c.isDigit = true }

/-- The number that digits denote. -/
def Digits.value (ds : Digits) : Nat := Nat.ofDigitChars 10 ds.1 0

/-- The exponent of a literal: a small or capital letter, maybe a sign, and digits. -/
structure Literal.Exponent where
  capital : Bool
  sign : Option Sign
  digits : Digits

/-- A **literal**: digits, maybe a point and digits, maybe an exponent. -/
structure Literal where
  whole : Digits
  fraction : Option Digits
  exponent : Option Literal.Exponent

namespace Literal

/-- The text of an exponent. -/
def Exponent.text (e : Exponent) : List Char :=
  (if e.capital then 'E' else 'e') :: ((e.sign.map Sign.symbol).toList ++ e.digits.1)

/-- The value of an exponent. -/
def Exponent.value (e : Exponent) : Int :=
  if e.sign = some .minus then -(e.digits.value : Int) else e.digits.value

/-- The point and the digits behind it, if there are any. -/
def fractionText (l : Literal) : List Char := l.fraction.elim [] fun ds => '.' :: ds.1

/-- The exponent as it is written, if there is one. -/
def exponentText (l : Literal) : List Char := l.exponent.elim [] Exponent.text

/-- The text of a literal. -/
def text (l : Literal) : List Char := l.whole.1 ++ (l.fractionText ++ l.exponentText)

/-- The parts of a literal. -/
def numeral (l : Literal) : Numeral :=
  ⟨l.whole.1, l.fraction.elim [] (·.1), l.exponent.elim 0 Exponent.value⟩

/-- The number that a literal denotes, rounded. -/
def value (l : Literal) : Double := l.numeral.decimal.toDouble false

/-- The stage at which the scanner leaves a literal. -/
def stage (l : Literal) : Stage :=
  if l.exponent.isSome then .exponentDigits else if l.fraction.isSome then .fraction else .integer

end Literal

/-! ### The scanner -/

@[simp] theorem CodePoint.isDigit_scalar (c : Char) : (scalar c).isDigit = c.isDigit := rfl

theorem CodePoint.digitClass_of_isDigit {c : Char} (h : c.isDigit = true) :
    (scalar c).digitClass = .digit := by
  simp [digitClass, h]

namespace Stage

/-- The stage behind a text, if the machine goes on at each of its characters. -/
def follow? (s : Stage) : Text → Option Stage
  | [] => some s
  | c :: t => (s.next? c.digitClass).bind fun s' => s'.follow? t

theorem follow?_append (s : Stage) (t u : Text) :
    s.follow? (t ++ u) = (s.follow? t).bind fun s' => s'.follow? u := by
  induction t generalizing s with
  | nil => rfl
  | cons c t ih => simp [follow?, ih, Option.bind_assoc]

/-- The scanner takes what the machine follows, and stops where the machine does. -/
theorem scan_of_follow? {s s' : Stage} {t r : Text} (h : s.follow? t = some s')
    (hr : ∀ c ∈ r.head?, s'.next? c.digitClass = none) : s.scan (t ++ r) = ⟨s', t, r⟩ := by
  induction t generalizing s with
  | nil =>
    cases h
    cases r with
    | nil => rfl
    | cons c r => rw [List.nil_append, scan, hr c (Option.mem_some_self c)]
  | cons c t ih =>
    obtain ⟨s₁, hs₁, ht⟩ := Option.bind_eq_some_iff.mp h
    rw [List.cons_append, scan, hs₁]
    dsimp only
    rw [ih ht]

/-- Digits lead to the stage that digits do not leave. -/
theorem follow?_digits {s s' : Stage} (h : s.next? .digit = some s')
    (h' : s'.next? .digit = some s') (ds : Digits) : s.follow? (Text.ofChars ds.1) = some s' := by
  have more : ∀ ds : List Char, (∀ c ∈ ds, c.isDigit = true) →
      s'.follow? (Text.ofChars ds) = some s' := by
    intro ds hds
    induction ds with
    | nil => rfl
    | cons c ds ih =>
      obtain ⟨hc, hds⟩ := List.forall_mem_cons.mp hds
      rw [Text.ofChars_cons, follow?, CodePoint.digitClass_of_isDigit hc, h', Option.bind_some,
        ih hds]
  obtain ⟨ds, hne, hds⟩ := ds
  cases ds with
  | nil => exact absurd rfl hne
  | cons c ds =>
    obtain ⟨hc, hds⟩ := List.forall_mem_cons.mp hds
    rw [Text.ofChars_cons, follow?, CodePoint.digitClass_of_isDigit hc, h, Option.bind_some,
      more ds hds]

theorem follow?_exponent (e : Literal.Exponent) {s : Stage}
    (h : s.next? .exponent = some exponent) :
    s.follow? (Text.ofChars e.text) = some exponentDigits := by
  have hdigits : ∀ s : Stage, s.next? .digit = some exponentDigits →
      s.follow? (Text.ofChars e.digits.1) = some exponentDigits :=
    fun s hs => follow?_digits hs rfl e.digits
  have hletter : (CodePoint.scalar (if e.capital then 'E' else 'e')).digitClass = .exponent := by
    cases e.capital <;> rfl
  rw [Literal.Exponent.text, Text.ofChars_cons, follow?, hletter, h, Option.bind_some,
    Text.ofChars_append, follow?_append]
  cases e.sign with
  | none => exact hdigits exponent rfl
  | some sign => cases sign <;> exact hdigits exponentSign rfl

/-- The machine follows a literal to its end. -/
theorem follow?_literal (l : Literal) :
    integer.follow? (Text.ofChars l.text) = some l.stage := by
  rw [Literal.text, Text.ofChars_append, Text.ofChars_append, follow?_append,
    follow?_digits rfl rfl l.whole, Option.bind_some, follow?_append]
  obtain ⟨whole, fraction, exponent⟩ := l
  have hfraction : ∀ ds : Digits, integer.follow? (Text.ofChars ('.' :: ds.1)) =
      some Stage.fraction := fun ds => follow?_digits (s := point) rfl rfl ds
  cases fraction with
  | none =>
    cases exponent with
    | none => rfl
    | some e => exact follow?_exponent e rfl
  | some ds =>
    rw [Literal.fractionText, Option.elim_some, hfraction, Option.bind_some]
    cases exponent with
    | none => rfl
    | some e => exact follow?_exponent e rfl

/-- The machine of the scanner goes on only at characters that can be part of a number. -/
theorem digitClass_ne_other {s s' : Stage} {t : Text} (h : s.follow? t = some s') :
    ∀ c ∈ t, c.digitClass ≠ .other := by
  induction t generalizing s with
  | nil => nofun
  | cons c t ih =>
    obtain ⟨s₁, hs₁, ht⟩ := Option.bind_eq_some_iff.mp h
    intro d hd
    rcases List.mem_cons.mp hd with rfl | hd
    · intro hother
      rw [hother] at hs₁
      cases s <;> cases hs₁
    · exact ih ht d hd

end Stage

theorem Literal.digitClass_ne_other (l : Literal) :
    ∀ c ∈ Text.ofChars l.text, c.digitClass ≠ .other :=
  Stage.digitClass_ne_other (Stage.follow?_literal l)

/-- A literal begins with a digit. -/
theorem Literal.exists_text_eq_cons (l : Literal) :
    ∃ c cs, l.text = c :: cs ∧ c.isDigit = true := by
  obtain ⟨⟨ds, hne, hds⟩, fraction, exponent⟩ := l
  cases ds with
  | nil => exact absurd rfl hne
  | cons c ds => exact ⟨c, _, rfl, hds c List.mem_cons_self⟩

theorem Literal.missing?_stage (l : Literal) : l.stage.missing? = none := by
  obtain ⟨whole, _ | _, _ | _⟩ := l <;> rfl

/-! ### The reader -/

/-- Nothing at the beginning of a text goes on with a number. -/
def Text.StopsNumber (r : Text) : Prop := ∀ c ∈ r.head?, c.digitClass = .other

namespace Text

theorem StopsNumber.cons {c : CodePoint} (h : c.digitClass = .other) (r : Text) :
    StopsNumber (c :: r) := by
  rintro _ ⟨⟩
  exact h

theorem StopsNumber.nil : StopsNumber [] := nofun

/-- What stops every number stops the machine at every stage. -/
theorem StopsNumber.next?_eq_none {r : Text} (h : StopsNumber r) (s : Stage) :
    ∀ c ∈ r.head?, s.next? c.digitClass = none := by
  intro c hc
  rw [h c hc]
  cases s <;> rfl

theorem leadingDigits_append {ds : List Char} {r : Text} (hds : ∀ c ∈ ds, c.isDigit = true)
    (hr : ∀ c ∈ r.head?, c.isDigit = false) : leadingDigits (ofChars ds ++ r) = (ds, r) := by
  induction ds with
  | nil =>
    cases r with
    | nil => rfl
    | cons c r =>
      have hc := hr c (Option.mem_some_self c)
      cases c with
      | surrogate => rfl
      | scalar c =>
        rw [CodePoint.isDigit_scalar] at hc
        simp [leadingDigits, hc]
  | cons c ds ih =>
    obtain ⟨hc, hds⟩ := List.forall_mem_cons.mp hds
    simp [leadingDigits, hc, ih hds]

end Text

namespace Numeral

variable {r : Text}

theorem readFraction_point (ds : Digits) (hr : ∀ c ∈ r.head?, c.isDigit = false) :
    readFraction (Text.ofChars ('.' :: ds.1) ++ r) = (ds.1, r) := by
  rw [Text.ofChars_cons, List.cons_append, readFraction,
    Text.leadingDigits_append ds.2.2 hr]
  split
  · next h => exact absurd (congrArg Prod.fst h) ds.2.1
  · next h =>
    cases h
    rfl

theorem readFraction_of_ne (hr : ∀ c ∈ r.head?, c ≠ .scalar '.') : readFraction r = ([], r) := by
  unfold readFraction
  split
  · exact absurd rfl (hr _ (Option.mem_some_self _))
  · rfl

theorem readExponent_of_ne (hr : ∀ c ∈ r.head?, c ≠ .scalar 'e' ∧ c ≠ .scalar 'E') :
    readExponent r = (0, r) := by
  unfold readExponent
  split
  · next c t =>
    obtain ⟨he, hE⟩ := hr _ (Option.mem_some_self _)
    rw [if_neg]
    simp only [Bool.or_eq_true, decide_eq_true_eq]
    rintro (rfl | rfl)
    · exact he rfl
    · exact hE rfl
  · rfl

theorem readExponentDigits_append (negative : Bool) (ds : Digits)
    (hr : ∀ c ∈ r.head?, c.isDigit = false) :
    readExponentDigits negative (Text.ofChars ds.1 ++ r) =
      some (if negative then -(ds.value : Int) else ds.value, r) := by
  rw [readExponentDigits, Text.leadingDigits_append ds.2.2 hr]
  split
  · next h => exact absurd (congrArg Prod.fst h) ds.2.1
  · next h =>
    cases h
    rfl

theorem readSignedExponent_digits (ds : Digits) (hr : ∀ c ∈ r.head?, c.isDigit = false) :
    readSignedExponent (Text.ofChars ds.1 ++ r) = some ((ds.value : Int), r) := by
  refine Eq.trans ?_ (readExponentDigits_append false ds hr)
  obtain ⟨ds, hne, hds⟩ := ds
  cases ds with
  | nil => exact absurd rfl hne
  | cons c ds =>
    have hc := hds c List.mem_cons_self
    rw [Text.ofChars_cons, List.cons_append]
    unfold readSignedExponent
    split
    · next h =>
      cases h
      cases hc
    · next h =>
      cases h
      cases hc
    · rfl

theorem readExponent_exponent (e : Literal.Exponent) (hr : ∀ c ∈ r.head?, c.isDigit = false) :
    readExponent (Text.ofChars e.text ++ r) = (e.value, r) := by
  have hsigned : readSignedExponent
      (Text.ofChars ((e.sign.map Sign.symbol).toList ++ e.digits.1) ++ r) = some (e.value, r) := by
    obtain ⟨capital, sign, digits⟩ := e
    rcases sign with _ | _ | _
    · exact readSignedExponent_digits digits hr
    · exact readExponentDigits_append false digits hr
    · exact readExponentDigits_append true digits hr
  rw [Literal.Exponent.text, Text.ofChars_cons, List.cons_append, readExponent, hsigned]
  cases e.capital <;> rfl

/-- What stops a number is neither a digit nor a point nor the letter of an exponent. -/
theorem ne_of_digitClass_eq_other {c : CodePoint} (h : c.digitClass = .other) :
    c.isDigit = false ∧ c ≠ .scalar '.' ∧ c ≠ .scalar 'e' ∧ c ≠ .scalar 'E' := by
  refine ⟨Bool.eq_false_iff.mpr fun hd => ?_, ?_, ?_, ?_⟩
  · simp [CodePoint.digitClass, hd] at h
  all_goals
    rintro rfl
    cases h

/-- No digit begins an exponent, and neither does a point. -/
theorem head?_exponentText (l : Literal) (hr : r.StopsNumber) :
    ∀ c ∈ (Text.ofChars l.exponentText ++ r).head?, c.isDigit = false ∧ c ≠ .scalar '.' := by
  intro c hc
  obtain ⟨whole, fraction, exponent⟩ := l
  cases exponent with
  | none =>
    obtain ⟨hd, hp, -⟩ := ne_of_digitClass_eq_other (hr c hc)
    exact ⟨hd, hp⟩
  | some e =>
    obtain ⟨capital, sign, digits⟩ := e
    cases capital <;> cases hc <;> exact ⟨rfl, by simp⟩

theorem head?_fractionText (l : Literal) (hr : r.StopsNumber) :
    ∀ c ∈ (Text.ofChars l.fractionText ++ (Text.ofChars l.exponentText ++ r)).head?,
      c.isDigit = false := by
  intro c hc
  have hexponent := head?_exponentText l hr
  obtain ⟨whole, fraction, exponent⟩ := l
  cases fraction with
  | none => exact (hexponent c hc).1
  | some ds =>
    cases hc
    rfl

theorem readFraction_literal (l : Literal) (hr : r.StopsNumber) :
    readFraction (Text.ofChars l.fractionText ++ (Text.ofChars l.exponentText ++ r)) =
      (l.numeral.fraction, Text.ofChars l.exponentText ++ r) := by
  have hexponent := head?_exponentText l hr
  obtain ⟨whole, fraction, exponent⟩ := l
  cases fraction with
  | none => exact readFraction_of_ne fun c hc => (hexponent c hc).2
  | some ds => exact readFraction_point ds fun c hc => (hexponent c hc).1

theorem readExponent_literal (l : Literal) (hr : r.StopsNumber) :
    readExponent (Text.ofChars l.exponentText ++ r) = (l.numeral.exponent, r) := by
  obtain ⟨whole, fraction, exponent⟩ := l
  cases exponent with
  | none => exact readExponent_of_ne fun c hc => (ne_of_digitClass_eq_other (hr c hc)).2.2
  | some e => exact readExponent_exponent e fun c hc => (ne_of_digitClass_eq_other (hr c hc)).1

/-- **A literal is read to its end**, and its parts are found. -/
theorem read_literal (l : Literal) (hr : r.StopsNumber) :
    read (Text.ofChars l.text ++ r) = (l.numeral, r) := by
  rw [read, Literal.text, Text.ofChars_append, Text.ofChars_append, List.append_assoc,
    List.append_assoc, Text.leadingDigits_append l.whole.2.2 (head?_fractionText l hr)]
  dsimp only
  rw [readFraction_literal l hr]
  dsimp only
  rw [readExponent_literal l hr]
  rfl

theorem decimalOf_literal (l : Literal) :
    decimalOf (Text.ofChars l.text) = l.numeral.decimal := by
  have h := read_literal l Text.StopsNumber.nil
  rw [List.append_nil] at h
  rw [decimalOf, h]

end Numeral

/-! ### The token -/

/-- No digit is a symbol of the grammar. -/
theorem CodePoint.terminal?_of_isDigit {c : CodePoint} (h : c.isDigit = true) :
    c.terminal? = none := by
  unfold terminal?
  split
  · cases h
  · cases h
  · next c _ _ =>
    have hne : ∀ o : Operator, o.symbol ≠ c := by
      rintro o rfl
      cases o <;> cases h
    simp [Operator.ofChar?, hne]
  · rfl

/-- No digit is a blank. -/
theorem CodePoint.isBlank_of_isDigit {c : CodePoint} (h : c.isDigit = true) :
    c.isBlank = false := by
  cases c with
  | surrogate => rfl
  | scalar c =>
    refine Bool.eq_false_iff.mpr fun hb => ?_
    simp only [isBlank, Bool.or_eq_true, decide_eq_true_eq] at hb
    rcases hb with rfl | rfl <;> cases h

namespace Cursor

/-- **A literal is one token**, unless what is behind it goes on with the number. -/
theorem tokens_literal {s p : Nat} (s' : Nat) (l : Literal) {r : Text} (hr : r.StopsNumber) :
    (Cursor.mk s p (Text.ofChars l.text ++ r)).tokens =
      ⟨p, .number l.value⟩ :: (Cursor.mk s' (p + l.text.length) r).tokens := by
  obtain ⟨c, cs, hcs, hc⟩ := l.exists_text_eq_cons
  have hc' : (CodePoint.scalar c).isDigit = true := hc
  -- the first digit is looked at by the lexer, the rest of the literal by the scanner
  have hfollow : Stage.integer.follow? (Text.ofChars cs) = some l.stage := by
    have h := Stage.follow?_literal l
    rwa [hcs, Text.ofChars_cons, Stage.follow?, CodePoint.digitClass_of_isDigit hc] at h
  have hscan : Stage.integer.scan (Text.ofChars cs ++ r) = ⟨l.stage, Text.ofChars cs, r⟩ :=
    Stage.scan_of_follow? hfollow (hr.next?_eq_none l.stage)
  have hvalue : (Numeral.decimalOf (.scalar c :: Text.ofChars cs)).toDouble false = l.value := by
    rw [← Text.ofChars_cons, ← hcs, Numeral.decimalOf_literal]
    rfl
  have htoken : token p (.scalar c) (Text.ofChars cs ++ r) =
      (⟨p, .number l.value⟩, ⟨p, p + l.text.length, r⟩) := by
    rw [token, CodePoint.terminal?_of_isDigit hc']
    simp only [CodePoint.isDigit_scalar, hc, if_true, number, hscan, l.missing?_stage, hvalue, hcs,
      Text.length_ofChars, List.length_cons]
    congr 2
    omega
  rw [hcs, Text.ofChars_cons, List.cons_append,
    tokens_cons_of_not_isBlank (CodePoint.isBlank_of_isDigit hc') (by rw [htoken]; rfl), htoken,
    tokens_mk p s', hcs]

end Cursor

end Reckoner
