import Reckoner.Codec
import Reckoner.CommandLine.Arguments
import Reckoner.Text.Blank

/-!
# Running the command line

A run goes through lines of input, each of which is handled alone: `Settings.handle` gives what a
line adds to the output and to the messages, and whether it failed. Blank lines add nothing.

The lines are the expressions among the arguments, or what is typed at a prompt, or the standard
input (`Settings.source`). There is a prompt if one is asked for, or if no expressions are given
and a user sits at a terminal. At a prompt the user can interrupt the run, which fails it.
-/

namespace Reckoner.CommandLine

/-- The grammar, as it is printed. -/
def grammar : Text :=
  ("expression           := addition-level EOF\n" ++
    "addition-level       := multiplication-level\n" ++
    "                        ( ('+'|'-') multiplication-level )*\n" ++
    "multiplication-level := prefix-level ( ('*'|'/') prefix-level )*\n" ++
    "prefix-level         := ('+'|'-') prefix-level | primary\n" ++
    "primary              := NUMBER | '(' addition-level ')'\n" : String)

/-- What a part of a run adds: to the output, to the messages, and whether it failed. -/
structure Effect where
  output : Text
  messages : Text
  failed : Bool
deriving DecidableEq

namespace Effect

/-- Nothing at all. -/
def none : Effect := ⟨[], [], false⟩

/-- One effect after another. -/
def append (a b : Effect) : Effect :=
  ⟨a.output ++ b.output, a.messages ++ b.messages, a.failed || b.failed⟩

instance : Append Effect := ⟨append⟩

/-- A line of output. -/
def printed (t : Text) : Effect := ⟨t ++ "\n", [], false⟩

/-- A line among the messages. -/
def message (t : Text) : Effect := ⟨[], t ++ "\n", false⟩

/-- The failure of a line. -/
def failure : Effect := ⟨[], [], true⟩

end Effect

/-! ### Single lines -/

/-- The value of a terminal in a dump of tokens. -/
def tokenColumn (t : Terminal) : Text :=
  match t with
  | .leftParen | .rightParen | .finish => []
  | t => (Token.valueOf t).inline

/-- A token in a dump: its kind, its position and its value. -/
def tokenLine (t : Token) : Text :=
  Text.joined "\t"
    [Text.ofString t.terminal.kind.name, Text.ofInt t.position, tokenColumn t.terminal]

/-- A note for whoever wants to see what goes on. -/
def Settings.note (settings : Settings) (origin : String) (t : Text) : Effect :=
  if settings.verbose then .message ("DEBUG:expression_parser." ++ Text.ofString origin ++ ":" ++ t)
  else .none

/-- The result of an expression, given by its root. -/
def Output.format (output : Output) (root : Expr) : Text :=
  match output with
  | .value => root.value.text
  | .description => root.description
  | .json =>
    match Json.dumps .standard (.expr (.parsed root)) with
    | .ok t => t
    | .error e => e.message

/-- The notes on a fault: a lexical error is noted when its token is read. -/
def Settings.faultNotes (settings : Settings) : Fault → Effect
  | .parse ⟨_, _, some e⟩ => settings.note "parser" ("Lexical error: " ++ e.message)
  | _ => .none

/-- Print the result of a line, or say what is wrong with it. -/
def Settings.evaluate (settings : Settings) (line : Text) : Effect :=
  let begun := settings.note "parsed" ("Parsing " ++ line.quoted)
  match Expr.parse line with
  | .ok root =>
    begun ++ settings.note "parsed" ("Parsed " ++ line.quoted ++ " as " ++ root.description) ++
      .printed (settings.output.format root)
  | .error f =>
    let message := (Failure.fault f).message
    let shown : Effect :=
      if settings.verbose then .message ("<ParseError: " ++ message ++ ">") else .none
    begun ++ settings.faultNotes f ++ settings.note "cli" ("Failed to parse " ++ line.quoted) ++
      shown ++ .message message ++ .failure

/-- Print the tokens of a line. -/
def dump (line : Text) : Effect :=
  (line.tokens.map fun t => Effect.printed (tokenLine t)).foldl (· ++ ·) .none

/-- Handle a line of input, which may still have its line end. -/
def Settings.handle (settings : Settings) (line : Text) : Effect :=
  let line := line.chomp
  if line.isBlank then .none
  else
    match settings.task with
    | .evaluate => settings.evaluate line
    | .dumpTokens => dump line
    | .printGrammar => .none

/-! ### Whole runs -/

/-- Where the lines come from. -/
inductive Source where
  | arguments (lines : List Text)
  | standardInput
  | prompt (shown : Text)
deriving DecidableEq

/-- Where the lines come from, if the user sits at a terminal or not. -/
def Settings.source (settings : Settings) (interactive : Bool) : Source :=
  match settings.expressions with
  | some lines => .arguments lines
  | none =>
    match settings.prompt with
    | none | some [] => if interactive then .prompt defaultPrompt else .standardInput
    | some shown => .prompt shown

/-- What is printed before any line is read. -/
def Settings.opening (settings : Settings) : Effect :=
  match settings.task with
  | .evaluate => .none
  | .printGrammar => ⟨grammar, [], false⟩
  | .dumpTokens => .printed "<type>\t<position>\t<value>"

/-- Whether the task of a run looks at lines at all. -/
def Settings.readsLines (settings : Settings) : Bool := settings.task ≠ .printGrammar

/-- Handle lines one after another. -/
def Settings.handleAll (settings : Settings) (lines : List Text) : Effect :=
  (lines.map settings.handle).foldl (· ++ ·) .none

/-- The surroundings of a run. -/
structure Surroundings where
  standardInput : Text
  interactive : Bool
  /-- The lines typed at a prompt, if there is one. -/
  typed : List Text
  /-- Whether the user interrupts the run behind these lines. -/
  interrupted : Bool

/-- The status and the texts that a run leaves behind. -/
structure Transcript where
  status : Nat
  output : Text
  messages : Text
deriving DecidableEq

/-- The transcript of an effect. -/
def Effect.transcript (e : Effect) : Transcript := ⟨if e.failed then 1 else 0, e.output, e.messages⟩

/-- Run with these settings. -/
def Settings.run (settings : Settings) (around : Surroundings) : Transcript :=
  if settings.readsLines then
    match settings.source around.interactive with
    | .arguments lines => (settings.opening ++ settings.handleAll lines).transcript
    | .standardInput =>
      (settings.opening ++ settings.handleAll around.standardInput.lines).transcript
    | .prompt _ =>
      let effect := settings.opening ++ settings.handleAll around.typed
      (if around.interrupted then effect ++ .failure else effect).transcript
  else settings.opening.transcript

/-- The transcript of arguments that make no sense. -/
def UsageError.transcript (e : UsageError) : Transcript :=
  ⟨2, [], usage ++ Text.ofString programName ++ ": error: " ++ e.message ++ "\n"⟩

/-- Run with these arguments. -/
def run (arguments : List Text) (around : Surroundings) : Transcript :=
  match read arguments with
  | .ok .help => ⟨0, helpText, []⟩
  | .ok (.run settings) => settings.run around
  | .error e => e.transcript

end Reckoner.CommandLine
