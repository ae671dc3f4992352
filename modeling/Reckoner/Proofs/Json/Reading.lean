import Mathlib.Data.List.Basic
import Reckoner.Json.Document
import Reckoner.Json.Writer

/-!
# Reading what a document holds

What the readers of documents make of texts of a known form. Every statement is about a text with
a rest behind it and says that the reader stops at the rest (`Json.Reading.Gives`); a whole document
has white space behind its only value (`Json.parse_of_gives`).

A string of plain characters is written as it is, between quotes, and read back
(`Json.stringLiteral_of_isPlain`, `Json.gives_string`).
-/

namespace Reckoner

/-- A **plain** character stands for itself in a string: ASCII, and neither a control character nor
a quote nor a backslash. -/
def CodePoint.isPlain (c : CodePoint) : Bool :=
  0x20 ≤ c.value && c.value ≤ 0x7E && c ≠ .scalar '"' && c ≠ .scalar '\\'

namespace Json

/-! ### What a reading gives -/

/-- A reading **gives** a result when it succeeds with it, and leaves `rest` of the text. -/
def Reading.Gives {α : Type} {t : Text} (r : Reading α t) (a : α) (rest : Text) : Prop :=
  ∃ tail, r = .ok (a, tail) ∧ tail.1 = rest

namespace Reading.Gives

variable {α β : Type} {s t rest : Text} {r : Reading α s} {a : α}

theorem weaken (hr : r.Gives a rest) (h : s.length ≤ t.length) : (r.weaken h).Gives a rest := by
  obtain ⟨tail, rfl, rfl⟩ := hr
  exact ⟨_, rfl, rfl⟩

theorem map (hr : r.Gives a rest) (f : α → β) :
    Gives (Except.map (fun x => (f x.1, x.2)) r) (f a) rest := by
  obtain ⟨tail, rfl, rfl⟩ := hr
  exact ⟨_, rfl, rfl⟩

end Reading.Gives

theorem Literal.gives_reading {t rest : Text} {l : Literal t} {d : Datum} (hd : l.1 = .ok d)
    (hrest : l.2.1 = rest) : l.reading.Gives d rest := by
  refine ⟨l.2, ?_, hrest⟩
  rw [Literal.reading, hd]
  rfl

/-! ### Strings -/

section Strings

variable {t : Text} {c : CodePoint}

/-- A plain character is written as it is. -/
theorem stringCharacter_of_isPlain (asciiOnly : Bool) (hc : c.isPlain = true) :
    stringCharacter asciiOnly c = [c] := by
  simp only [CodePoint.isPlain, Bool.and_eq_true, decide_eq_true_eq] at hc
  obtain ⟨⟨⟨hlow, hhigh⟩, hquote⟩, hbackslash⟩ := hc
  unfold stringCharacter
  split
  · exact absurd rfl hquote
  · exact absurd rfl hbackslash
  -- the other characters with a short escape are control characters
  · exact absurd hlow (by decide)
  · exact absurd hlow (by decide)
  · exact absurd hlow (by decide)
  · exact absurd hlow (by decide)
  · exact absurd hlow (by decide)
  · rw [if_neg]
    simp only [Bool.or_eq_true, Bool.and_eq_true, decide_eq_true_eq]
    omega

/-- Plain characters are written as they are. -/
theorem stringLiteral_of_isPlain (asciiOnly : Bool) (ht : ∀ c ∈ t, c.isPlain = true) :
    stringLiteral asciiOnly t = .scalar '"' :: (t ++ [.scalar '"']) := by
  have hflat : t.flatMap (stringCharacter asciiOnly) = t := by
    rw [List.flatMap_congr fun c hc => stringCharacter_of_isPlain asciiOnly (ht c hc)]
    exact List.flatMap_singleton' t
  rw [stringLiteral, hflat]

/-- Plain characters are read as they are, up to the quote behind them. -/
theorem gives_string (opening : Nat) (ht : ∀ c ∈ t, c.isPlain = true) (rest : Text) :
    (string opening (t ++ .scalar '"' :: rest)).Gives t rest := by
  induction t with
  | nil =>
    rw [List.nil_append, string]
    exact ⟨_, rfl, rfl⟩
  | cons c t ih =>
    obtain ⟨hc, ht⟩ := List.forall_mem_cons.mp ht
    simp only [CodePoint.isPlain, Bool.and_eq_true, decide_eq_true_eq] at hc
    obtain ⟨⟨⟨hlow, -⟩, hquote⟩, hbackslash⟩ := hc
    rw [List.cons_append, string, if_neg (Nat.not_lt.mpr hlow)]
    · exact ((ih ht).map (c :: ·)).weaken _
    · exact hquote
    · exact hbackslash

end Strings

/-! ### Words and numbers -/

/-- The words begin with no digit, and with no digit behind a hyphen. -/
theorem exists_word_eq_cons (hooks : Hooks) : ∀ w ∈ words hooks, ∃ c d cs,
    Text.ofString w.1 = Text.ofChars (c :: d :: cs) ∧ c.isDigit = false ∧ d.isDigit = false := by
  simp only [words, List.forall_mem_cons]
  exact ⟨⟨_, _, _, rfl, rfl, rfl⟩, ⟨_, _, _, rfl, rfl, rfl⟩, ⟨_, _, _, rfl, rfl, rfl⟩,
    ⟨_, _, _, rfl, rfl, rfl⟩, ⟨_, _, _, rfl, rfl, rfl⟩, ⟨_, _, _, rfl, rfl, rfl⟩, nofun⟩

theorem word?_eq_none {hooks : Hooks} {t : Text}
    (h : ∀ w ∈ words hooks, ¬ Text.ofString w.1 <+: t) : word? hooks t = none := by
  rw [word?, List.findSome?_eq_none_iff]
  intro w hw
  refine dif_neg ?_
  rintro ⟨-, -, htake⟩
  exact h w hw (List.prefix_iff_eq_take.mpr htake.symm)

theorem number_hyphen {hooks : Hooks} {s : Text} {l : Literal s}
    (h : unsignedNumber hooks true (.scalar '-' :: s) s = some l) :
    number hooks (.scalar '-' :: s) = l.reading.weaken (Nat.le_succ _) := by
  rw [number, h]

theorem number_of_ne {hooks : Hooks} {t : Text} {l : Literal t}
    (ht : ∀ c ∈ t.head?, c ≠ .scalar '-') (h : unsignedNumber hooks false t t = some l) :
    number hooks t = l.reading := by
  unfold number
  split
  · exact absurd rfl (ht _ (Option.mem_some_self _))
  · rw [h]

/-! ### Values -/

theorem gives_quoted (hooks : Hooks) {t : Text} (ht : ∀ c ∈ t, c.isPlain = true) (rest : Text) :
    (read hooks .value (.scalar '"' :: (t ++ .scalar '"' :: rest))).Gives (.text t) rest := by
  rw [read]
  exact ((gives_string _ ht rest).map Datum.text).weaken _

/-- A value that begins with no quote and no bracket is a word or a number. -/
theorem read_value {hooks : Hooks} {t : Text}
    (ht : ∀ c ∈ t.head?, c ≠ .scalar '"' ∧ c ≠ .scalar '\x7b' ∧ c ≠ .scalar '[') :
    read hooks .value t =
      match word? hooks t with
      | some l => l.reading
      | none => number hooks t := by
  rw [read.eq_def]
  dsimp only
  split
  · exact absurd rfl (ht _ (Option.mem_some_self _)).1
  · exact absurd rfl (ht _ (Option.mem_some_self _)).2.1
  · exact absurd rfl (ht _ (Option.mem_some_self _)).2.2
  · rfl

/-! ### Documents -/

/-- Of the plain characters only the blank may be lost at the beginning of a document. -/
theorem isSpace_eq_false {c : CodePoint} (hc : c.isPlain = true) (hblank : c ≠ .scalar ' ') :
    isSpace c = false ∧ c ≠ .scalar '\uFEFF' := by
  constructor
  · refine Bool.eq_false_iff.mpr fun hspace => ?_
    simp only [isSpace, Bool.or_eq_true, decide_eq_true_eq] at hspace
    rcases hspace with ((rfl | rfl) | rfl) | rfl
    · exact hblank rfl
    · cases hc
    · cases hc
    · cases hc
  · rintro rfl
    cases hc

/-- A document is its only value, if neither white space nor a byte order mark stands before it. -/
theorem parse_of_gives {hooks : Hooks} {t : Text} {d : Datum}
    (ht : ∀ c ∈ t.head?, isSpace c = false ∧ c ≠ .scalar '\uFEFF')
    (h : (read hooks .value t).Gives d []) : parse hooks t = .ok d := by
  have hskip : skipSpace t = t := by
    cases t with
    | nil => rfl
    | cons c t =>
      have hspace := (ht c (Option.mem_some_self c)).1
      rw [skipSpace, List.dropWhile_cons_of_neg (by simp [hspace])]
  have hmark : t.head? ≠ some (.scalar '\uFEFF') := fun hhead => (ht _ hhead).2 rfl
  rw [← hskip] at h
  obtain ⟨⟨tail, hlt⟩, hread, rfl⟩ := h
  rw [parse, if_neg hmark, hread]
  rfl

/-- A document that is a string of plain characters is read as their text. -/
theorem parse_quoted (hooks : Hooks) {t : Text} (ht : ∀ c ∈ t, c.isPlain = true) :
    parse hooks (.scalar '"' :: (t ++ [.scalar '"'])) = .ok (.text t) := by
  refine parse_of_gives ?_ (gives_quoted hooks ht [])
  rintro _ ⟨⟩
  exact ⟨rfl, by decide⟩

end Json

end Reckoner
