import Reckoner.Proofs.Expr.Lexing
import Reckoner.Proofs.Expr.Sentence

/-!
# The grammar of expressions

What the statements about single texts come to. The rules accept exactly the sequences of
terminals of canonical trees and give that tree (`Expr.parse_eq_ok_iff_yield`), and where they
accept nothing, they end at the token at which the recognizer stops
(`Expr.exists_parse_iff_judge_accepted`).

Two canonical trees with the same terminals are equal, also when their numbers cannot be written
as single tokens (`Expr.eq_of_terminals`). No text has the terminals of such trees. So all their
numbers are set to zero, which leaves trees that can be rendered and parsed, and the numbers are
read off the terminals.
-/

namespace Reckoner

/-! ### Trees without their numbers -/

/-- A terminal with its number set to zero. -/
def Terminal.blanked : Terminal → Terminal
  | number _ => number (.zero false)
  | leftParen => leftParen
  | rightParen => rightParen
  | operator o => operator o
  | error e => error e
  | finish => finish

namespace Expr

open Recognizer

/-- A tree with all its numbers set to zero. -/
def blanked (e : Expr) : Expr := e.substitute fun _ => number (.zero false)

theorem leaves_blanked (e : Expr) :
    e.blanked.leaves = e.leaves.map fun _ => Double.zero false :=
  leaves_substitute (fun _ => .zero false) e

theorem terminals_blanked (e : Expr) :
    e.blanked.terminals = e.terminals.map Terminal.blanked := by
  unfold blanked
  induction e with
  | number x => rfl
  | signed s e ih =>
    rw [substitute, terminals, ih]
    rfl
  | binary o l r ihl ihr =>
    rw [substitute, terminals, ihl, ihr, terminals, List.map_append]
    rfl
  | grouping e ih =>
    rw [substitute, terminals, ih, terminals, List.map_cons, List.map_append]
    rfl
  | parsed e ih => exact ih

/-- The numbers of a tree are those among its terminals. -/
theorem leaves_eq_filterMap (e : Expr) : e.leaves = e.terminals.filterMap Parser.number? := by
  induction e with
  | number x => rfl
  | signed s e ih => exact ih
  | binary o l r ihl ihr =>
    rw [leaves, terminals, List.filterMap_append, ← ihl, ihr]
    rfl
  | grouping e ih =>
    have hopen : (grouping e).terminals.filterMap Parser.number? =
        (e.terminals ++ [Terminal.rightParen]).filterMap Parser.number? := rfl
    rw [leaves, hopen, List.filterMap_append, ← ih]
    exact (List.append_nil _).symm
  | parsed e ih => exact ih

/-- A tree is determined by what is left without its numbers, and by its numbers. -/
theorem eq_of_blanked {e f : Expr} (h : e.blanked = f.blanked) (hleaves : e.leaves = f.leaves) :
    e = f := by
  induction e generalizing f with
  | number x =>
    cases f with
    | number y => rw [List.singleton_inj.mp hleaves]
    | _ => cases h
  | signed s e ih =>
    cases f with
    | signed s' e' =>
      obtain ⟨rfl, hblank⟩ := Expr.signed.inj h
      rw [ih hblank hleaves]
    | _ => cases h
  | binary o l r ihl ihr =>
    cases f with
    | binary o' l' r' =>
      obtain ⟨rfl, hl, hr⟩ := Expr.binary.inj h
      -- the operands have equally many numbers, so the numbers split where the operands do
      have hlen : l.leaves.length = l'.leaves.length := by
        have hblank : l.blanked = l'.blanked := hl
        simpa [leaves_blanked] using congrArg (fun e => e.leaves.length) hblank
      obtain ⟨hleft, hright⟩ := List.append_inj hleaves hlen
      rw [ihl hl hleft, ihr hr hright]
    | _ => cases h
  | grouping e ih =>
    cases f with
    | grouping e' => rw [ih (Expr.grouping.inj h) hleaves]
    | _ => cases h
  | parsed e ih =>
    cases f with
    | parsed e' => rw [ih (Expr.parsed.inj h) hleaves]
    | _ => cases h

/-- A text that is cut into the terminals of a canonical tree parses to it. -/
theorem parse_of_lexes {s : Text} {e : Expr} (h : Lexes s e.terminals []) (he : e.isCanonical = true) :
    parse s = .ok e :=
  parse_eq_ok_iff.mpr ⟨h.terminals_eq, he⟩

/-- A canonical tree whose numbers are finite and have no sign is what its text parses to. -/
theorem parse_description_eq_self {e : Expr} (he : e.isCanonical = true)
    (hf : ∀ x ∈ e.leaves, x.isFinite = true) (hs : ∀ x ∈ e.leaves, x.isSignSet = false) :
    parse e.description = .ok e := by
  rw [parse_eq_ok_iff, e.terminals_description hf, spelled_eq_self hs]
  exact ⟨rfl, he⟩

theorem parse_description_blanked {e : Expr} (he : e.isCanonical = true) :
    parse e.blanked.description = .ok e.blanked := by
  have hzero : ∀ x ∈ e.blanked.leaves, x = Double.zero false := by
    simp [leaves_blanked]
  have hcan : e.blanked.isCanonical = true := by
    rw [blanked, isCanonical_substitute (fun _ => rfl) (fun _ => rfl), he]
  refine parse_description_eq_self hcan (fun x hx => ?_) fun x hx => ?_
  · rw [hzero x hx]
    rfl
  · rw [hzero x hx]
    rfl

/-- **The grammar is unambiguous.** -/
theorem eq_of_terminals {e f : Expr} (he : e.isCanonical = true) (hf : f.isCanonical = true)
    (h : e.terminals = f.terminals) : e = f := by
  have hdescription : e.blanked.description = f.blanked.description := by
    refine description_congr ?_
    rw [terminals_blanked, terminals_blanked, h]
  have hblank : e.blanked = f.blanked := by
    have hparse := parse_description_blanked he
    rw [hdescription, parse_description_blanked hf] at hparse
    exact (Except.ok.inj hparse).symm
  refine eq_of_blanked hblank ?_
  rw [leaves_eq_filterMap, leaves_eq_filterMap, h]

/-! ### The sentences -/

/-- **The parser accepts exactly its grammar and gives the one tree that the grammar gives.** A
text parses to a tree exactly if there is no error among its tokens, the tokens in front of the end
have the terminals of the tree, and the tree is canonical; and no two canonical trees have the same
terminals. -/
theorem parse_eq_ok_iff_yield (s : Text) (t : Expr) :
    (parse s = .ok t ↔ (∀ k ∈ s.tokens, k.terminal.error? = none) ∧
      (s.tokens.takeWhile fun k => !k.terminal.isFinish).map (·.terminal) = t.terminals ∧
      t.isCanonical = true) ∧
    ∀ u : Expr, t.isCanonical = true → u.isCanonical = true → u.terminals = t.terminals →
      u = t := by
  refine ⟨?_, fun u ht hu h => eq_of_terminals hu ht h⟩
  rw [parse_eq_ok_iff, s.terminals_eq]
  constructor
  -- neither a tree nor the end has an error among its terminals, so there is none at all
  · rintro ⟨hterminals, hcan⟩
    have hyield := List.append_cancel_right hterminals
    refine ⟨fun k hk => ?_, hyield, hcan⟩
    have hmem : k.terminal ∈ s.terminals := List.mem_map_of_mem hk
    rw [s.terminals_eq, hyield, List.mem_append, List.mem_singleton] at hmem
    rcases hmem with hmem | hfinish
    · exact (t.not_mem_terminals hmem).1
    · rw [hfinish]
      rfl
  · rintro ⟨-, hyield, hcan⟩
    exact ⟨by rw [hyield], hcan⟩

theorem parse_eq_ok_iff_yield_difference :
    ((Text.tokens "0.0 - 0.0").takeWhile fun k => !k.terminal.isFinish).map (·.terminal) =
      [.number (.zero false), .operator .subtraction, .number (.zero false)] ∧
    (binary .subtraction (number (.zero false)) (number (.zero false))).spelled =
      binary .subtraction (number (.zero false)) (number (.zero false)) := by
  have hparse : parse "0.0 - 0.0" =
      .ok (binary .subtraction (number (.zero false)) (number (.zero false))) :=
    parse_eq_ok_iff.mpr ⟨terminals_description
      (binary .subtraction (number (.zero false)) (number (.zero false))) (by decide), rfl⟩
  obtain ⟨hiff, hunique⟩ := parse_eq_ok_iff_yield "0.0 - 0.0"
    (binary .subtraction (number (.zero false)) (number (.zero false)))
  obtain ⟨-, hyield, -⟩ := hiff.mp hparse
  exact ⟨hyield, hunique _ rfl rfl rfl⟩

/-- **Parsing and the recognizer agree.** A text parses exactly if the recognizer accepts its
tokens, and otherwise parsing ends with an error of the kind and at the token with which the
recognizer stops. -/
theorem exists_parse_iff_judge_accepted (s : Text) :
    ((∃ t, parse s = .ok t) ↔ judge (.operand 0) s.tokens = .accepted) ∧
    ((∃ t, parse s = .ok t) ∨ ∃ kind token, judge (.operand 0) s.tokens = .stopped kind token ∧
      parse s = .error (.parse ⟨kind, token, token.terminal.error?⟩)) := by
  cases hparse : parse s with
  | ok t =>
    have hok : ∃ t', Except.ok (ε := Fault) t = .ok t' := ⟨t, rfl⟩
    exact ⟨⟨fun _ => judge_of_parse_ok hparse, fun _ => hok⟩, .inl hok⟩
  | error f =>
    obtain ⟨kind, token, hstopped, rfl⟩ := judge_of_parse_error hparse
    refine ⟨⟨nofun, fun haccepted => ?_⟩, .inr ⟨kind, token, hstopped, rfl⟩⟩
    rw [hstopped] at haccepted
    cases haccepted

end Expr

end Reckoner
