import Reckoner.Datum
import Reckoner.Json.Error

/-!
# JSON literals

String and number literals. A string may escape a surrogate that belongs to no pair. A number
literal with neither a fraction nor an exponent is an exact integer, and any other is a double;
the `Hooks` of a reading can keep the text of a literal instead, or read it as a decimal.

Every reader here takes at least one code point: what it leaves is a proper `Tail` of its text.
-/

namespace Reckoner.Json

/-- A shorter text. -/
abbrev Tail (t : Text) := { r : Text // r.length < t.length }

/-- What a reader answers: a result and the rest of the text, or what is wrong. -/
abbrev Reading (α : Type) (t : Text) := Except Problem (α × Tail t)

/-- A reading of the rest of a text is one of the text. -/
def Reading.weaken {α : Type} {s t : Text} (r : Reading α s) (h : s.length ≤ t.length) :
    Reading α t :=
  r.map fun (a, rest) => (a, ⟨rest.1, Nat.lt_of_lt_of_le rest.2 h⟩)

/-! ### Strings -/

/-- What an escape of one letter stands for. -/
def escape? : CodePoint → Option Char
  | .scalar '"' => some '"'
  | .scalar '\\' => some '\\'
  | .scalar '/' => some '/'
  | .scalar 'b' => some '\x08'
  | .scalar 'f' => some '\x0c'
  | .scalar 'n' => some '\n'
  | .scalar 'r' => some '\r'
  | .scalar 't' => some '\t'
  | _ => none

/-- The value of a hexadecimal digit of either case. -/
def hexDigit? (c : CodePoint) : Option Nat :=
  let n := c.value
  if 0x30 ≤ n && n ≤ 0x39 then some (n - 0x30)
  else if 0x61 ≤ n && n ≤ 0x66 then some (n - 0x61 + 10)
  else if 0x41 ≤ n && n ≤ 0x46 then some (n - 0x41 + 10)
  else none

/-- The number of four hexadecimal digits with at least one code point behind them. -/
def unit? : (t : Text) → Option (Nat × Tail t)
  | a :: b :: c :: d :: e :: t => do
    let a ← hexDigit? a
    let b ← hexDigit? b
    let c ← hexDigit? c
    let d ← hexDigit? d
    some (((a * 16 + b) * 16 + c) * 16 + d, ⟨e :: t, by simp only [List.length_cons]; omega⟩)
  | _ => none

/-- A first half of a surrogate pair. -/
def isHighSurrogate (n : Nat) : Bool := 0xD800 ≤ n && n < 0xDC00

/-- A second half of a surrogate pair. -/
def isLowSurrogate (n : Nat) : Bool := 0xDC00 ≤ n && n < 0xE000

/-- The code point of a surrogate pair. -/
def joinSurrogates (high low : Nat) : CodePoint :=
  .ofNat (0x10000 + (high - 0xD800) * 0x400 + (low - 0xDC00))

/-- The code point that an escape by number stands for. Two escapes that make up a surrogate pair
stand for one. The text begins behind the letter `u`. -/
def unicodeEscape (t : Text) : Reading CodePoint t :=
  let invalid (t : Text) : Problem := .grammar "Invalid \\uXXXX escape" (t.length + 1)
  match unit? t with
  | none => .error (invalid t)
  | some (n, rest) =>
    if isHighSurrogate n then
      match h : rest.1 with
      | .scalar '\\' :: .scalar 'u' :: s =>
        match unit? s with
        | none => .error (invalid s)
        | some (m, rest') =>
          if isLowSurrogate m then
            .ok (joinSurrogates n m, ⟨rest'.1, by
              have h1 := rest.2
              have h2 := rest'.2
              rw [h] at h1
              simp only [List.length_cons] at h1
              omega⟩)
          else .ok (.ofNat n, rest)
      | _ => .ok (.ofNat n, rest)
    else .ok (.ofNat n, rest)

/-- A string behind its opening quote, where `opening` code points were left. -/
def string (opening : Nat) (t : Text) : Reading Text t :=
  match t with
  | [] => .error (.grammar "Unterminated string starting at" opening)
  | .scalar '"' :: t => .ok ([], ⟨t, by simp⟩)
  | .scalar '\\' :: t =>
    match t with
    | [] => .error (.grammar "Unterminated string starting at" opening)
    | .scalar 'u' :: t =>
      match unicodeEscape t with
      | .error p => .error p
      | .ok (c, rest) =>
        Reading.weaken ((string opening rest.1).map fun (s, r) => (c :: s, r)) (by
          have := rest.2
          simp only [List.length_cons]
          omega)
    | c :: t =>
      match escape? c with
      | none => .error (.grammar "Invalid \\escape" (t.length + 2))
      | some c =>
        Reading.weaken ((string opening t).map fun (s, r) => (.scalar c :: s, r)) (by
          simp only [List.length_cons]
          omega)
  | c :: t =>
    if c.value < 0x20 then .error (.grammar "Invalid control character at" (t.length + 1))
    else
      Reading.weaken ((string opening t).map fun (s, r) => (c :: s, r)) (by
        simp only [List.length_cons]
        omega)
termination_by t.length
decreasing_by
  all_goals try have := rest.2
  all_goals simp only [List.length_cons] at *
  all_goals omega

/-! ### Numbers -/

/-- What becomes of a number literal: its standard value, its text, or a decimal. -/
inductive Hook where
  | standard
  | text
  | decimal
deriving DecidableEq

/-- What becomes of the literals of doubles, of integers, and of `NaN` and the infinities. -/
structure Hooks where
  float : Hook
  integer : Hook
  constant : Hook

/-- Every literal has its standard value. -/
def Hooks.standard : Hooks := ⟨.standard, .standard, .standard⟩

/-- The datum that a literal becomes under a hook. -/
def Hook.apply (hook : Hook) (literal : Text) (standard : Datum) : Except Problem Datum :=
  match hook with
  | .standard => .ok standard
  | .text => .ok (.text literal)
  | .decimal =>
    match BigDecimal.read literal with
    | .ok d => .ok (.decimal d)
    | .error e => .error (.decimal e)

/-- A literal at the beginning of a text: what becomes of it, and the rest of the text. -/
abbrev Literal (t : Text) := Except Problem Datum × Tail t

/-- What a reader answers that has found a literal. -/
def Literal.reading {t : Text} (l : Literal t) : Reading Datum t := l.1.map fun d => (d, l.2)

/-- The digits of an integer without leading zeros, and the rest. -/
def integerDigits : Text → List Char × Text
  | .scalar '0' :: t => (['0'], t)
  | t => Text.leadingDigits t

theorem length_integerDigits (t : Text) :
    (integerDigits t).1.length + (integerDigits t).2.length = t.length := by
  unfold integerDigits
  split
  · simp [Nat.add_comm]
  · exact Text.length_leadingDigits _

/-- The number literal behind its sign, which is part of the text `literal`. An integer is read
whatever its length is: that there can be a limit of digits past which integers are refused is left
aside. -/
def unsignedNumber (hooks : Hooks) (negative : Bool) (literal t : Text) : Option (Literal t) :=
  match hd : integerDigits t with
  | ([], _) => none
  | (d :: ds, behind) =>
    let fraction := Numeral.readFraction behind
    let rest := Numeral.readExponent fraction.2
    let text := literal.take (literal.length - rest.2.length)
    let datum :=
      if rest.2.length = behind.length then
        let n : Int := Nat.ofDigitChars 10 (d :: ds) 0
        hooks.integer.apply text (.integer (if negative then -n else n))
      else
        let decimal := Numeral.decimal ⟨d :: ds, fraction.1, rest.1⟩
        hooks.float.apply text (.double (decimal.toDouble negative))
    some (datum, ⟨rest.2, by
      have h1 := length_integerDigits t
      have h2 := Numeral.length_readFraction_le behind
      have h3 := Numeral.length_readExponent_le (Numeral.readFraction behind).2
      rw [hd] at h1
      simp only [List.length_cons] at h1
      exact Nat.lt_of_le_of_lt h3 (by omega)⟩)

/-- A number literal. -/
def number (hooks : Hooks) (t : Text) : Reading Datum t :=
  let expected : Problem := .grammar "Expecting value" t.length
  match t with
  | .scalar '-' :: s =>
    match unsignedNumber hooks true (.scalar '-' :: s) s with
    | none => .error expected
    | some l => Reading.weaken l.reading (Nat.le_succ _)
  | t =>
    match unsignedNumber hooks false t t with
    | none => .error expected
    | some l => l.reading

end Reckoner.Json
