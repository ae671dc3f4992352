import Reckoner.Proofs.Codec.Loading
import Reckoner.Proofs.Expr.Numbers
import Reckoner.Proofs.Json.Double

/-!
# Documents read again

An expression is written into a document as a number, if it is a single number, and as the string
of its description otherwise. Numbers come back whatever they are, the infinities too, and so do
descriptions in which all numbers are finite. An expression with an infinity among several nodes is
written without an error all the same, but its string does not parse: `inf` is no number of the
grammar.

Main statement: which expressions come back, and where reading fails for the others
(`Expr.exists_dumps_loads`).
-/

namespace Reckoner

/-- The error of parsing a text that has a character at an index where no token begins with it. -/
def ParseError.ofInvalidCharacter (index : Nat) (c : CodePoint) : ParseError :=
  let e : LexicalError := ⟨.invalidCharacter, index, some [c]⟩
  ⟨.lexicalError, ⟨index, .error e⟩, some e⟩

/-! ### Descriptions in strings -/

/-- The text of a double is plain. -/
theorem Double.isPlain_of_mem_text (x : Double) : ∀ c ∈ x.text, c.isPlain = true := by
  cases x with
  | finite negative a =>
    obtain ⟨j, htext, -⟩ := exists_number negative a
    intro c hc
    rw [← htext] at hc
    exact (j.isPlain_of_mem hc).1
  | infinite negative => cases negative <;> decide
  | nan p =>
    show ∀ c ∈ Text.ofString "nan", c.isPlain = true
    decide

namespace Expr

/-- The description of a tree is plain. -/
theorem isPlain_of_mem_description (e : Expr) : ∀ c ∈ e.description, c.isPlain = true := by
  induction e with
  | number x => exact x.isPlain_of_mem_text
  | signed s e ih =>
    refine List.forall_mem_cons.mpr ⟨?_, ih⟩
    cases s <;> rfl
  | binary o l r ihl ihr =>
    refine List.forall_mem_append.mpr ⟨List.forall_mem_append.mpr ⟨ihl, ?_⟩, ihr⟩
    cases o <;> decide
  | grouping e ih =>
    refine List.forall_mem_cons.mpr ⟨rfl, List.forall_mem_append.mpr ⟨ih, ?_⟩⟩
    decide
  | parsed e ih => exact ih

theorem exists_eq_number (e : Expr) (h : e.isNumber = true) : ∃ x, e = number x := by
  cases e with
  | number x => exact ⟨x, rfl⟩
  | _ => cases h

/-- The document that an expression is written as. -/
theorem dumps_parsed (root : Expr) : Json.dumps .standard (.expr (.parsed root)) =
    .ok (if root.isNumber then Json.doubleLiteral root.value
      else .scalar '"' :: (root.description ++ [.scalar '"'])) := by
  rw [← Json.stringLiteral_of_isPlain true root.isPlain_of_mem_description, Json.dumps,
    Datum.encodeParsed, encode]
  cases root.isNumber with
  | true =>
    have hallowed : Json.Style.standard.double root.value = .ok (Json.doubleLiteral root.value) :=
      if_pos (Bool.or_true _)
    rw [if_pos rfl, Json.Style.write, hallowed, if_pos rfl]
  | false =>
    rw [if_neg (by decide), Json.Style.write, if_neg (by decide)]
    rfl

/-- A text that breaks off within the terminals of a tree does not parse: the first letter of an
infinity or a NaN begins no token. -/
theorem parse_description_of_breaksOff {t : Text} {e : Expr} (h : BreaksOff t e.terminals) :
    ∃ before c after, t = before ++ c :: after ∧ c ∈ Double.specialInitials ∧
      (∀ d ∈ before, d ∉ Double.specialInitials) ∧
      parse t = .error (.parse (.ofInvalidCharacter before.length c)) := by
  obtain ⟨before, c, after, js, rfl, hjs, hc, hbefore, hlexes⟩ := h
  refine ⟨before, c, after, rfl, hc, hbefore, ?_⟩
  have hletter : ∀ c ∈ Double.specialInitials,
      c.isBlank = false ∧ c.terminal? = none ∧ c.isDigit = false := by decide
  obtain ⟨hb, hk, hd⟩ := hletter c hc
  obtain ⟨ks, hks, htokens⟩ := hlexes after 0 0 0
  rw [Cursor.tokens_invalid 0 hb hk hd, Nat.zero_add] at htokens
  exact parse_of_error_behind htokens (hks ▸ hjs) rfl

/-! ### Writing and reading -/

/-- A number comes back, an infinity too. -/
theorem loads_doubleLiteral {x : Double} (hx : ∀ p, x ≠ .nan p) :
    Json.loads .standard (Json.doubleLiteral x) = .ok (number x) :=
  Json.loads_of_parse (Json.parse_doubleLiteral hx)

/-- A description comes back as what it parses to. -/
theorem loads_description (root : Expr) :
    Json.loads .standard (.scalar '"' :: (root.description ++ [.scalar '"'])) =
      decode (.text root.description) :=
  Json.loads_quoted _ root.isPlain_of_mem_description

/-- What is made from a number is the number. -/
theorem eq_number_of_ofDatum {x : Double} {root : Expr} (h : ofDatum (.double x) = .ok root) :
    root = number x :=
  (Except.ok.inj h).symm

/-- **Which expressions come back from a document.** An expression that was parsed, or made from a
number other than a NaN, is always written. It comes back as it was exactly if it is a single number
or all its numbers are finite; otherwise the document holds a string in which the first letter of an
infinity is an invalid character. -/
theorem exists_dumps_loads (root : Expr)
    (h : (∃ s, parse s = .ok root) ∨
      ∃ x : Double, (∀ p, x ≠ .nan p) ∧ ofDatum (.double x) = .ok root) :
    ∃ document, Json.dumps .standard (.expr (.parsed root)) = .ok document ∧
      (root.isNumber = true ∨ (∀ x ∈ root.leaves, x.isFinite = true) →
        Json.loads .standard document = .ok root) ∧
      (root.isNumber = false → (∃ x ∈ root.leaves, x.isFinite = false) →
        ∃ before c after, root.description = before ++ c :: after ∧ c ∈ Double.specialInitials ∧
          (∀ d ∈ before, d ∉ Double.specialInitials) ∧
          Json.loads .standard document =
            .error (.fault (.parse (.ofInvalidCharacter before.length c)))) := by
  refine ⟨_, root.dumps_parsed, ?_⟩
  cases hnumber : root.isNumber with
  | true =>
    obtain ⟨x, rfl⟩ := root.exists_eq_number hnumber
    have hnan : ∀ p, x ≠ .nan p := by
      rcases h with ⟨s, hs⟩ | ⟨y, hy, hroot⟩
      · exact (leaves_of_parse hs x List.mem_cons_self).2
      · obtain rfl : x = y := number.inj (eq_number_of_ofDatum hroot)
        exact hy
    exact ⟨fun _ => loads_doubleLiteral hnan, nofun⟩
  | false =>
    obtain ⟨s, hs⟩ : ∃ s, parse s = .ok root := by
      rcases h with hs | ⟨y, -, hroot⟩
      · exact hs
      · rw [eq_number_of_ofDatum hroot] at hnumber
        cases hnumber
    have hsign : ∀ x ∈ root.leaves, x.isSignSet = false := fun x hx => (leaves_of_parse hs x hx).1
    rw [if_neg (by decide), loads_description]
    constructor
    · rintro (hnumber | hfinite)
      · cases hnumber
      · exact decode_text_of_parse
          (parse_description_eq_self (parse_eq_ok_iff.mp hs).2 hfinite hsign)
    · intro _ hspecial
      have hbreaks := breaksOff_description hspecial
      rw [spelled_eq_self hsign] at hbreaks
      obtain ⟨before, c, after, htext, hc, hbefore, hparse⟩ :=
        parse_description_of_breaksOff hbreaks
      exact ⟨before, c, after, htext, hc, hbefore, decode_text_of_fault hparse⟩

/-- The tree of `2.0 * -(0.0 - 2.0)`. -/
def signedFactor : Expr :=
  binary .multiplication (number (Decimal.toDouble false ⟨2, 0⟩))
    (signed .minus (grouping (binary .subtraction (number (.zero false))
      (number (Decimal.toDouble false ⟨2, 0⟩)))))

/-- A negative zero comes back from a number, and an expression of several nodes from a string. -/
theorem exists_dumps_loads_product :
    (∃ document, Json.dumps .standard (.expr (.parsed (number (.zero true)))) = .ok document ∧
      Json.loads .standard document = .ok (number (.zero true))) ∧
    parse "2.0 * -(0.0 - 2.0)" = .ok signedFactor ∧
    ∃ document, Json.dumps .standard (.expr (.parsed signedFactor)) = .ok document ∧
      Json.loads .standard document = .ok signedFactor := by
  obtain ⟨zero, hzero, hloadsZero, -⟩ :=
    exists_dumps_loads (number (.zero true)) (.inr ⟨.zero true, nofun, rfl⟩)
  have htext : signedFactor.description = "2.0 * -(0.0 - 2.0)" := by decide +kernel
  have hparse : parse "2.0 * -(0.0 - 2.0)" = .ok signedFactor :=
    htext ▸ parse_description_eq_self rfl (by decide +kernel) (by decide +kernel)
  obtain ⟨product, hproduct, hloadsProduct, -⟩ := exists_dumps_loads signedFactor (.inl ⟨_, hparse⟩)
  exact ⟨⟨zero, hzero, hloadsZero (.inl rfl)⟩, hparse,
    ⟨product, hproduct, hloadsProduct (.inr (by decide +kernel))⟩⟩

/-- The literal `1e400`, which is past the largest double. -/
def overflowing : Literal := ⟨.ofNat 1, none, some ⟨false, none, .ofNat 400⟩⟩

/-- A negative literal that overflows is written as a string that cannot be read. -/
theorem loads_dumps_overflow : ∃ root failure, parse "-1e400" = .ok root ∧
    Json.dumps .standard (.expr (.parsed root)) = .ok "\"-inf\"" ∧
      Json.loads .standard "\"-inf\"" = .error failure := by
  have hvalue : overflowing.value = .infinite false := by decide
  have hlexes : Lexes "-1e400" [.operator .subtraction, .number overflowing.value] [] :=
    .cons (.sign .minus) (.literal overflowing .nil)
  have hparse : parse "-1e400" = .ok (signed .minus (number (.infinite false))) := by
    rw [parse_eq_ok_iff, hlexes.terminals_eq, hvalue]
    exact ⟨rfl, rfl⟩
  obtain ⟨_, _, _, -, -, -, herror⟩ := parse_description_of_breaksOff
    (breaksOff_description (e := signed .minus (number (.infinite false)))
      ⟨.infinite false, by decide, rfl⟩)
  exact ⟨_, _, hparse, dumps_parsed _,
    (loads_description _).trans (decode_text_of_fault herror)⟩

end Expr

end Reckoner
