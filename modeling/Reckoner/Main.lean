import Reckoner.CommandLine.Session

/-!
# The program

The command line over the real standard streams. Every line is handled as soon as it is read.
-/

namespace Reckoner.CommandLine

/-- The string of a text; a surrogate that belongs to no pair cannot be printed. -/
def display (t : Text) : String :=
  String.ofList <| t.map fun c =>
    match c with
    | .scalar c => c
    | .surrogate _ => '\uFFFD'

/-- Print an effect. -/
def perform (e : Effect) : IO Unit := do
  let out ← IO.getStdout
  let err ← IO.getStderr
  out.putStr (display e.output)
  out.flush
  err.putStr (display e.messages)
  err.flush

/-- Read lines up to the end of a stream, and print what each adds. The answer says whether one of
them failed. -/
partial def converse (settings : Settings) (shown : Text) (input : IO.FS.Stream) (failed : Bool) :
    IO Bool := do
  perform ⟨shown, [], false⟩
  let line ← input.getLine
  if line.isEmpty then return failed
  let effects := (Text.lines line).map settings.handle
  effects.forM perform
  converse settings shown input (failed || effects.any Effect.failed)

/-- Run with these settings; the answer says whether a line failed. -/
def runInteractively (settings : Settings) : IO Bool := do
  perform settings.opening
  if !settings.readsLines then return false
  let input ← IO.getStdin
  let out ← IO.getStdout
  let interactive := (← input.isTty) && (← out.isTty)
  match settings.source interactive with
  | .arguments lines =>
    let effects := lines.map settings.handle
    effects.forM perform
    return effects.any Effect.failed
  | .standardInput => converse settings [] input false
  | .prompt shown => converse settings shown input false

end Reckoner.CommandLine

/-- Run with the arguments of the process. -/
def main (arguments : List String) : IO UInt32 := do
  match Reckoner.CommandLine.read (arguments.map Reckoner.Text.ofString) with
  | .ok .help =>
    Reckoner.CommandLine.perform ⟨Reckoner.CommandLine.helpText, [], false⟩
    return 0
  | .ok (.run settings) =>
    return if ← Reckoner.CommandLine.runInteractively settings then 1 else 0
  | .error e =>
    Reckoner.CommandLine.perform ⟨[], e.transcript.messages, true⟩
    return 2
