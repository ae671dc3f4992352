import Reckoner.Codec
import Reckoner.Proofs.Double.Integer
import Reckoner.Proofs.Json.Number

/-!
# What a document stands for

Documents that hold a single number or a single string, and the expressions they stand for: a
number of either kind is decoded as the nearest double (`Exact.decode_datum`), and a string is
parsed (`Json.loads_quoted`).

An exact number past the largest double is refused as a number. It is decoded as an infinity, which
is what it is rounded to, so that the two ways a number is decoded are one.
-/

namespace Reckoner

/-- An infinity has the sign of what it was rounded from. -/
theorem Double.eq_infinite_of_ofOrdinal {negative : Bool} {a : Nat}
    (h : (ofOrdinal negative a).isInfinite = true) : ofOrdinal negative a = infinite negative := by
  rcases Nat.lt_or_ge a ordinals with ha | ha
  · rw [ofOrdinal_fin negative ⟨a, ha⟩] at h
    cases h
  · exact ofOrdinal_of_le ha

/-! ### Exact numbers -/

/-- An **exact number** is an integer or a fraction. -/
inductive Exact where
  | integer (n : Int)
  | rational (q : Rat)

namespace Exact

/-- An exact number as a datum. -/
def datum : Exact → Datum
  | integer n => .integer n
  | rational q => .rational q

/-- The failure of a number past the largest double. -/
def overflow : Exact → Failure
  | integer _ => .integerOverflow
  | rational _ => .rationalOverflow

/-- The double that it is rounded to. -/
def double : Exact → Double
  | integer n => .ofRational n 1
  | rational q => .ofRational q.num q.den

variable (d : Exact)

/-- A number is the double that it is rounded to, unless that is an infinity. -/
theorem ofDatum_datum :
    Expr.ofDatum d.datum = if d.double.isInfinite then .error d.overflow
      else .ok (.number d.double) := by
  have htoDouble : d.datum.toDouble =
      if d.double.isInfinite then .error d.overflow else .ok d.double := by
    cases d <;> rfl
  rw [Expr.ofDatum, htoDouble]
  split <;> rfl

/-- An infinity has the sign of the number. -/
theorem double_eq_infinite (h : d.double.isInfinite = true) :
    d.double = .infinite d.datum.isNegative := by
  cases d with
  | integer n => exact Double.eq_infinite_of_ofOrdinal h
  | rational q => exact Double.eq_infinite_of_ofOrdinal h

/-- A number that is refused is decoded as an infinity. -/
theorem decode_of_error (h : Expr.ofDatum d.datum = .error d.overflow) :
    Expr.decode d.datum = .ok (.number (.infinite d.datum.isNegative)) := by
  cases d
  all_goals
    rw [datum] at h ⊢
    rw [Expr.decode, h]
    · rfl
    · nofun

/-- A number that is not refused is decoded as what it is. -/
theorem decode_of_ok {e : Expr} (h : Expr.ofDatum d.datum = .ok e) :
    Expr.decode d.datum = .ok e := by
  cases d
  all_goals
    rw [datum] at h ⊢
    rw [Expr.decode, h]
    nofun

/-- **An exact number is decoded as the double that it is rounded to**, refused or not. -/
theorem decode_datum : Expr.decode d.datum = .ok (.number d.double) := by
  have hofDatum := d.ofDatum_datum
  by_cases hinfinite : d.double.isInfinite = true
  · rw [if_pos hinfinite] at hofDatum
    rw [d.decode_of_error hofDatum, ← d.double_eq_infinite hinfinite]
  · rw [if_neg hinfinite] at hofDatum
    exact d.decode_of_ok hofDatum

end Exact

/-- **An integer is decoded as the nearest double**, past the largest double too. -/
theorem Expr.decode_integer (n : Int) :
    decode (.integer n) = .ok (.number (.ofRational n 1)) := (Exact.integer n).decode_datum

/-! ### Texts -/

/-- A text is decoded as the expression that it is. -/
theorem Expr.decode_text_of_parse {t : Text} {e : Expr} (h : parse t = .ok e) :
    decode (.text t) = .ok e := by
  rw [decode, h]

theorem Expr.decode_text_of_fault {t : Text} {f : Fault} (h : parse t = .error f) :
    decode (.text t) = .error (.fault f) := by
  rw [decode, h]

namespace Json

theorem loads_of_parse {hooks : Hooks} {document : Text} {d : Datum}
    (h : parse hooks document = .ok d) : loads hooks document = Expr.decode d := by
  rw [loads, h]

/-- The string of a plain text stands for what the text is. -/
theorem loads_quoted (hooks : Hooks) {t : Text} (ht : ∀ c ∈ t, c.isPlain = true) :
    loads hooks (.scalar '"' :: (t ++ [.scalar '"'])) = Expr.decode (.text t) :=
  loads_of_parse (parse_quoted hooks ht)

end Json

end Reckoner
