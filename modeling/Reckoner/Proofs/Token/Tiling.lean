import Mathlib.Order.Monotone.Basic
import Reckoner.Proofs.Token.Stream

/-!
# Tokens tile the input

A run of the lexer over a text is a sequence of calls of `Cursor.next`, each at the cursor that the
call before it left behind (`Text.call`). What one call does is said once, in `Cursor.next_cases`
and `Cursor.tokenAt_token`: behind the blanks at its place either the text ends, or a character
begins a token.

Main statement: the calls that read a token tile the text (`Text.exists_tiling`). Between the place
of a call and the start of its token there are only blanks, no token is empty, and behind the last
one the end is read, as often as it is asked for.
-/

namespace Reckoner

/-- A number that breaks off where it needs a digit. -/
def Terminal.isBrokenNumber : Terminal → Bool
  | error e => e.kind ≠ .invalidCharacter
  | _ => false

/-- The characters that begin a token which is no error. -/
def Text.initials : Text := "()+-*/0123456789"

/-- What neither is a terminal nor begins a number is none of these characters. -/
theorem Text.not_mem_initials {c : CodePoint} (hk : c.terminal? = none) (hd : c.isDigit = false) :
    c ∉ Text.initials := by
  intro hc
  have hinitials : ∀ c ∈ Text.initials, c.terminal?.isSome ∨ c.isDigit = true := by decide
  rcases hinitials c hc with h | h
  · rw [hk] at h
    cases h
  · rw [hd] at h
    cases h

/-- A character that is a terminal is a parenthesis or an operator. -/
theorem CodePoint.terminal?_cases {c : CodePoint} {k : Terminal} (h : c.terminal? = some k) :
    k = .leftParen ∨ k = .rightParen ∨ ∃ o, k = .operator o := by
  unfold terminal? at h
  split at h
  · exact .inl (Option.some.inj h).symm
  · exact .inr (.inl (Option.some.inj h).symm)
  · obtain ⟨o, -, rfl⟩ := Option.map_eq_some_iff.mp h
    exact .inr (.inr ⟨o, rfl⟩)
  · cases h

namespace Cursor

/-! ### One call -/

/-- Behind blanks, a character that is not blank begins the token that is read. -/
theorem next_blanks_append {start p : Nat} {blanks t : Text} {first : CodePoint}
    (hblanks : ∀ b ∈ blanks, b.isBlank = true) (hfirst : first.isBlank = false) :
    (Cursor.mk start p (blanks ++ first :: t)).next = token (p + blanks.length) first t := by
  simp [next, skipBlanks, List.takeWhile_append_of_pos hblanks,
    List.dropWhile_append_of_pos hblanks, hfirst]

/-- **What reading a token does**: either all that is left is blank and the end is read, or a
character behind the blanks begins a token. -/
theorem next_cases (c : Cursor) :
    ((∀ b ∈ c.rest, b.isBlank = true) ∧ c.skipBlanks.position = c.position + c.rest.length ∧
      c.skipBlanks.rest = [] ∧
      c.next = (⟨(c.position + c.rest.length : Nat), .finish⟩, c.skipBlanks)) ∨
    ∃ blanks first t, c.rest = blanks ++ first :: t ∧ (∀ b ∈ blanks, b.isBlank = true) ∧
      first.isBlank = false ∧ c.next = token (c.position + blanks.length) first t := by
  obtain ⟨start, p, rest⟩ := c
  have hsplit := List.takeWhile_append_dropWhile (p := CodePoint.isBlank) (l := rest)
  have hblanks : ∀ b ∈ rest.takeWhile CodePoint.isBlank, b.isBlank = true := fun b hb =>
    List.all_eq_true.mp List.all_takeWhile b hb
  cases hd : rest.dropWhile CodePoint.isBlank with
  | nil =>
    rw [hd, List.append_nil] at hsplit
    rw [hsplit] at hblanks
    refine .inl ⟨hblanks, ?_, hd, ?_⟩
    · simp [skipBlanks, hsplit]
    · simp [next, skipBlanks, hd, hsplit]
  | cons first t =>
    rw [hd] at hsplit
    have hfirst : first.isBlank = false := by
      have hhead := List.head?_dropWhile_not CodePoint.isBlank rest
      rw [hd] at hhead
      simpa using hhead
    refine .inr ⟨_, first, t, hsplit.symm, hblanks, hfirst, ?_⟩
    have hnext : (Cursor.mk start p (_ ++ first :: t)).next = _ :=
      next_blanks_append hblanks hfirst
    rwa [hsplit] at hnext

/-- A number is complete, or it is an error at the index where a digit is missing. -/
theorem number_cases (start : Nat) (first : CodePoint) (t : Text) :
    ((Stage.integer.scan t).stage.missing? = none ∧
      ∃ x, (number start first t).1 = ⟨start, .number x⟩) ∨
    ∃ kind, (Stage.integer.scan t).stage.missing? = some kind ∧ kind ≠ .invalidCharacter ∧
      (number start first t).1 = ⟨(number start first t).2.position,
        .error ⟨kind, (number start first t).2.position, none⟩⟩ := by
  unfold number
  dsimp only
  cases hm : (Stage.integer.scan t).stage.missing? with
  | none => exact .inl ⟨rfl, _, rfl⟩
  | some kind =>
    refine .inr ⟨kind, rfl, ?_, rfl⟩
    rintro rfl
    cases h : (Stage.integer.scan t).stage <;> rw [h] at hm <;> cases hm

/-- What is read of the token that begins with the character `first` at `start`, in front of `t`:
the token and the cursor behind it. -/
structure TokenAt (start : Nat) (first : CodePoint) (t : Text) (r : Token × Cursor) : Prop where
  not_finish : r.1.terminal.isFinish = false
  start_eq : r.2.start = start
  /-- The token has the first character and some more of the text. -/
  taken : ∃ taken, t = taken ++ r.2.rest ∧ r.2.position = start + 1 + taken.length
  /-- A number that breaks off is reported where the digit is missing. -/
  position_eq : r.1.position =
    ((if r.1.terminal.isBrokenNumber then r.2.position else start : Nat) : Int)
  error : ∀ e, r.1.terminal = .error e → e.position = r.1.position ∧
    (e.kind = .invalidCharacter → e.character = some [first] ∧ first ∉ Text.initials)
  isDigit : r.1.terminal.isBrokenNumber = true → first.isDigit = true

theorem tokenAt_token (start : Nat) (first : CodePoint) (t : Text) :
    TokenAt start first t (token start first t) := by
  cases hk : first.terminal? with
  | some k =>
    have hread : token start first t = (⟨start, k⟩, ⟨start, start + 1, t⟩) := by rw [token, hk]
    rw [hread]
    rcases CodePoint.terminal?_cases hk with rfl | rfl | ⟨o, rfl⟩
    all_goals
      refine ⟨rfl, rfl, ⟨[], rfl, rfl⟩, rfl, fun e he => ?_, fun h => ?_⟩
      · cases he
      · cases h
  | none =>
    cases hd : first.isDigit with
    | false =>
      have hread : token start first t =
          (⟨start, .error ⟨.invalidCharacter, start, some [first]⟩⟩, ⟨start, start + 1, t⟩) := by
        simp [token, hk, hd]
      rw [hread]
      refine ⟨rfl, rfl, ⟨[], rfl, rfl⟩, rfl, ?_, fun h => ?_⟩
      · rintro _ ⟨⟩
        exact ⟨rfl, fun _ => ⟨rfl, Text.not_mem_initials hk hd⟩⟩
      · cases h
    | true =>
      have hread : token start first t = number start first t := by simp [token, hk, hd]
      have htaken : ∃ taken, t = taken ++ (number start first t).2.rest ∧
          (number start first t).2.position = start + 1 + taken.length :=
        ⟨_, (Stage.integer.taken_append_rest t).symm, rfl⟩
      rw [hread]
      rcases number_cases start first t with ⟨-, x, hnumber⟩ | ⟨kind, -, hkind, hnumber⟩
      · refine ⟨?_, rfl, htaken, ?_, ?_, fun _ => hd⟩ <;> rw [hnumber]
        · rfl
        · rfl
        · intro e he
          cases he
      · refine ⟨?_, rfl, htaken, ?_, ?_, fun _ => hd⟩ <;> rw [hnumber]
        · rfl
        · simp [Terminal.isBrokenNumber, hkind]
        · rintro _ ⟨⟩
          exact ⟨rfl, fun h => absurd h hkind⟩

/-! ### Cursors in a text -/

/-- A cursor **stands in** a text when what is left is the text from its position on. -/
structure StandsIn (c : Cursor) (s : Text) : Prop where
  position_le : c.position ≤ s.length
  rest_eq : c.rest = s.drop c.position

namespace StandsIn

variable {c : Cursor} {s : Text}

theorem ofText (s : Text) : (Cursor.ofText s).StandsIn s := ⟨Nat.zero_le _, rfl⟩

theorem getElem? (h : c.StandsIn s) (i : Nat) : s[c.position + i]? = c.rest[i]? := by
  rw [h.rest_eq, List.getElem?_drop]

theorem length_rest (h : c.StandsIn s) : c.position + c.rest.length = s.length := by
  have hle := h.position_le
  rw [h.rest_eq, List.length_drop]
  omega

/-- Behind a piece of what is left, the text goes on with what follows the piece. -/
theorem behind {d : Cursor} (piece : Text) (h : c.StandsIn s) (hrest : c.rest = piece ++ d.rest)
    (hd : d.position = c.position + piece.length) : d.StandsIn s := by
  have hlen := h.length_rest
  rw [hrest, List.length_append] at hlen
  refine ⟨by omega, ?_⟩
  rw [hd, ← List.drop_drop, ← h.rest_eq, hrest, List.drop_left]

end StandsIn

end Cursor

/-- A call of the lexer at index `p` of a text gives a **tile** when it reads a token that is not
the end, behind nothing but blanks. -/
structure Text.Tile (s : Text) (p : Nat) (r : Token × Cursor) : Prop where
  not_finish : r.1.terminal.isFinish = false
  le_start : p ≤ r.2.start
  start_lt : r.2.start < r.2.position
  position_le : r.2.position ≤ s.length
  blank : ∀ i c, p ≤ i → i < r.2.start → s[i]? = some c → c.isBlank = true
  /-- A number that breaks off is reported where the digit is missing, and all else at its start. -/
  position_eq : r.1.position =
    ((if r.1.terminal.isBrokenNumber then r.2.position else r.2.start : Nat) : Int)
  first : ∃ c, s[r.2.start]? = some c ∧ c.isBlank = false ∧
    ∀ e, r.1.terminal = .error e → e.position = r.1.position ∧
      (e.kind = .invalidCharacter → e.character = some [c] ∧ c ∉ Text.initials)

namespace Cursor

open Text (Tile)

variable {c : Cursor} {s : Text}

/-- **A call either reads a tile, or finds only blanks and reads the end.** -/
theorem StandsIn.next_cases (h : c.StandsIn s) :
    c.next.2.StandsIn s ∧ (Tile s c.position c.next ∨
      (c.next.1 = ⟨s.length, .finish⟩ ∧ c.next.2.position = s.length ∧
        ∀ b ∈ s.drop c.position, b.isBlank = true)) := by
  rcases c.next_cases with ⟨hblank, hpos, hrest, hnext⟩ |
    ⟨blanks, first, t, hrest, hblank, hfirst, hnext⟩
  · rw [hnext]
    refine ⟨h.behind c.rest (by rw [hrest, List.append_nil]) hpos, .inr ⟨?_, ?_, ?_⟩⟩
    · rw [h.length_rest]
    · rw [hpos, h.length_rest]
    · rwa [← h.rest_eq]
  · have ht := tokenAt_token (c.position + blanks.length) first t
    rw [← hnext] at ht
    obtain ⟨taken, htaken, hpos⟩ := ht.taken
    have hsplit : c.rest = (blanks ++ first :: taken) ++ c.next.2.rest := by
      rw [hrest, htaken, List.append_assoc, List.cons_append]
    have hd : c.next.2.StandsIn s := by
      refine h.behind _ hsplit ?_
      rw [hpos, List.length_append, List.length_cons]
      omega
    have hstart := ht.start_eq
    refine ⟨hd, .inl ⟨ht.not_finish, by omega, by omega, hd.position_le, ?_, ?_, first, ?_, hfirst,
      ht.error⟩⟩
    · intro i b hi hi' hb
      obtain ⟨j, rfl⟩ := Nat.exists_eq_add_of_le hi
      have hj : j < blanks.length := by omega
      rw [h.getElem?, hrest, List.getElem?_append_left hj] at hb
      exact hblank b (List.mem_of_getElem? hb)
    · rw [ht.position_eq, hstart]
    · rw [hstart, h.getElem?, hrest, List.getElem?_append_right (Nat.le_refl _), Nat.sub_self]
      rfl

/-! ### Runs -/

theorem skip_succ (c : Cursor) (n : Nat) : c.skip (n + 1) = (c.skip n).next.2 := by
  induction n generalizing c with
  | zero => rfl
  | succ n ih => exact ih c.next.2

theorem StandsIn.skip (h : c.StandsIn s) (n : Nat) : (c.skip n).StandsIn s := by
  induction n with
  | zero => exact h
  | succ n ih =>
    rw [skip_succ]
    exact ih.next_cases.1

/-- The tokens from a cursor on are what the calls give, up to the first one that reads the end. -/
theorem exists_tokens_eq_map (c : Cursor) :
    ∃ n ≤ c.rest.length,
      c.tokens = (List.range (n + 1)).map (fun i => (c.skip i).next.1) ∧
      (∀ i < n, (c.skip i).next.1.terminal.isFinish = false) ∧
      (c.skip n).next.1.terminal.isFinish = true := by
  fun_induction tokens c with
  | case1 c h => exact ⟨0, Nat.zero_le _, rfl, fun i hi => absurd hi (Nat.not_lt_zero i), h⟩
  | case2 c h ih =>
    have hf : c.next.1.terminal.isFinish = false := by simpa using h
    obtain ⟨n, hn, htokens, hbefore, hlast⟩ := ih
    refine ⟨n + 1, Nat.lt_of_le_of_lt hn (length_rest_next_lt hf), ?_, ?_, hlast⟩
    · rw [htokens, List.range_succ_eq_map (n := n + 1), List.map_cons, List.map_map]
      rfl
    · intro i hi
      cases i with
      | zero => exact hf
      | succ i => exact hbefore i (Nat.lt_of_succ_lt_succ hi)

end Cursor

namespace Text

variable {s : Text} {i j : Nat}

/-- What call number `i` gives in the run of the lexer over a text: a token, and the cursor that is
left behind. -/
def call (s : Text) (i : Nat) : Token × Cursor := ((Cursor.ofText s).skip i).next

/-- The position at which call number `i` is made. -/
def place (s : Text) (i : Nat) : Nat := ((Cursor.ofText s).skip i).position

theorem place_succ (s : Text) (i : Nat) : s.place (i + 1) = (s.call i).2.position := by
  rw [place, Cursor.skip_succ]
  rfl

theorem call_cases (s : Text) (i : Nat) :
    Tile s (s.place i) (s.call i) ∨
      ((s.call i).1 = ⟨s.length, .finish⟩ ∧ (s.call i).2.position = s.length ∧
        ∀ b ∈ s.drop (s.place i), b.isBlank = true) :=
  ((Cursor.StandsIn.ofText s).skip i).next_cases.2

theorem place_le (s : Text) (i : Nat) : s.place i ≤ s.length :=
  ((Cursor.StandsIn.ofText s).skip i).position_le

/-- Calls do not go back. -/
theorem place_mono (s : Text) : Monotone s.place := by
  refine monotone_nat_of_le_succ fun i => ?_
  rw [place_succ]
  rcases s.call_cases i with h | ⟨-, h, -⟩
  · exact Nat.le_trans h.le_start (Nat.le_of_lt h.start_lt)
  · rw [h]
    exact s.place_le i

/-- A call that is no tile reads the end. -/
theorem tile_of_not_isFinish (h : (s.call i).1.terminal.isFinish = false) :
    Tile s (s.place i) (s.call i) := by
  refine (s.call_cases i).resolve_right fun hend => ?_
  rw [hend.1] at h
  cases h

/-- Once the end is read it is read again. -/
theorem isFinish_call_of_le (h : (s.call i).1.terminal.isFinish = true) (hij : i ≤ j) :
    (s.call j).1.terminal.isFinish = true := by
  induction hij with
  | refl => exact h
  | @step j _ ih =>
    rw [← Bool.not_eq_false]
    intro hf
    have htile := tile_of_not_isFinish hf
    rcases s.call_cases j with hj | ⟨-, hj, -⟩
    · rw [hj.not_finish] at ih
      cases ih
    -- the call before has left nothing that a tile could be made of
    · have h1 := htile.le_start
      have h2 := htile.start_lt
      have h3 := htile.position_le
      rw [place_succ] at h1
      omega

/-- A token is reported at its call's place or behind it. -/
theorem place_le_position_call (s : Text) (i : Nat) :
    (s.place i : Int) ≤ (s.call i).1.position := by
  rcases s.call_cases i with h | ⟨h, -, -⟩
  · have h1 := h.le_start
    have h2 := h.start_lt
    rw [h.position_eq]
    split <;> omega
  · rw [h]
    exact Int.ofNat_le.mpr (s.place_le i)

theorem Tile.position_le_place (h : Tile s (s.place i) (s.call i)) :
    (s.call i).1.position ≤ s.place (i + 1) ∧
      ((s.call i).1.terminal.isBrokenNumber = false →
        (s.call i).1.position < s.place (i + 1)) := by
  have hlt := h.start_lt
  rw [place_succ, h.position_eq]
  constructor
  · split <;> omega
  · intro hb
    rw [hb, if_neg Bool.false_ne_true]
    omega

/-- An index in front of a call's place lies between the places of two calls before it. -/
theorem exists_place_le {x n : Nat} (h : x < s.place n) :
    ∃ i < n, s.place i ≤ x ∧ x < s.place (i + 1) := by
  induction n with
  | zero => exact absurd h (Nat.not_lt_zero x)
  | succ n ih =>
    by_cases hx : x < s.place n
    · obtain ⟨i, hi, hxi⟩ := ih hx
      exact ⟨i, Nat.lt_succ_of_lt hi, hxi⟩
    · exact ⟨n, Nat.lt_succ_self n, Nat.not_lt.mp hx, h⟩

/-- **The tokens of a text tile it.** The first calls of a run, no more of them than the text has
characters, read tiles; all later calls read the end, behind which only blanks were left. So the
tokens of the text are those of the first calls and one end. The tiles lie in order and do not
overlap, every character that is not blank lies in one, and no token is reported in front of the
one before it: at the same index only if that one is a number that breaks off. -/
theorem exists_tiling (s : Text) :
    ∃ n ≤ s.length,
      s.tokens = (List.range (n + 1)).map (fun i => (s.call i).1) ∧
      (∀ i < n, Tile s (s.place i) (s.call i)) ∧
      (∀ i ≥ n, (s.call i).1 = ⟨s.length, .finish⟩ ∧ (s.call i).2.position = s.length ∧
        ∀ b ∈ s.drop (s.place i), b.isBlank = true) ∧
      (∀ i j, i < j → j < n → (s.call i).2.position ≤ (s.call j).2.start) ∧
      (∀ x c, s[x]? = some c → c.isBlank = false →
        ∃ i < n, (s.call i).2.start ≤ x ∧ x < (s.call i).2.position) ∧
      ∀ i j, i < j → j ≤ n → (s.call i).1.position ≤ (s.call j).1.position ∧
        ((s.call i).1.terminal.isBrokenNumber = false →
          (s.call i).1.position < (s.call j).1.position) := by
  obtain ⟨n, hn, htokens, hbefore, hlast⟩ := (Cursor.ofText s).exists_tokens_eq_map
  have htile : ∀ i < n, Tile s (s.place i) (s.call i) := fun i hi =>
    tile_of_not_isFinish (hbefore i hi)
  have hend : ∀ i ≥ n, (s.call i).1 = ⟨s.length, .finish⟩ ∧
      (s.call i).2.position = s.length ∧ ∀ b ∈ s.drop (s.place i), b.isBlank = true := by
    intro i hi
    refine (s.call_cases i).resolve_left fun h => ?_
    have hf := isFinish_call_of_le (s := s) hlast hi
    rw [h.not_finish] at hf
    cases hf
  refine ⟨n, hn, htokens, htile, hend, ?_, ?_, ?_⟩
  · intro i j hij hj
    rw [← place_succ]
    exact Nat.le_trans (s.place_mono hij) (htile j hj).le_start
  · intro x c hx hc
    have hlt : x < s.place n := by
      rw [← Nat.not_le]
      intro hle
      have hmem : c ∈ s.drop (s.place n) := by
        refine List.mem_of_getElem? (i := x - s.place n) ?_
        rw [List.getElem?_drop, Nat.add_sub_cancel' hle, hx]
      rw [(hend n (Nat.le_refl n)).2.2 c hmem] at hc
      cases hc
    obtain ⟨i, hi, hle, hlt⟩ := exists_place_le hlt
    refine ⟨i, hi, ?_, by rwa [← place_succ]⟩
    -- what lies in front of the token is blank
    rw [← Nat.not_lt]
    intro hstart
    rw [(htile i hi).blank x c hle hstart hx] at hc
    cases hc
  · intro i j hij hj
    obtain ⟨hle, hlt⟩ := (htile i (Nat.lt_of_lt_of_le hij hj)).position_le_place
    have hplace : (s.place (i + 1) : Int) ≤ s.place j := Int.ofNat_le.mpr (s.place_mono hij)
    have hnext := s.place_le_position_call j
    exact ⟨by omega, fun hb => by have := hlt hb; omega⟩

end Text

end Reckoner
