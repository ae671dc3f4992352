import Reckoner.Text.Quoted

/-!
# The switches of the command line

Each switch has a letter behind one hyphen and a word behind two. Some come in pairs of which only
one may be given.
-/

namespace Reckoner.CommandLine

/-- A **switch** of the command line. -/
inductive Switch where
  | help
  | verbose
  | expression
  | prompt
  | describe
  | json
  | rawGrammar
  | dump
deriving DecidableEq

/-- What a switch takes from the arguments behind it. -/
inductive Arity where
  | nothing
  | optional
  | remainder
deriving DecidableEq

namespace Switch

/-- All switches, in the order of the usage line. -/
def all : List Switch := [help, verbose, expression, prompt, describe, json, rawGrammar, dump]

/-- The letter of a switch. -/
def letter : Switch → Char
  | help => 'h'
  | verbose => 'v'
  | expression => 'e'
  | prompt => 'p'
  | describe => 'd'
  | json => 'j'
  | rawGrammar => 'G'
  | dump => 'D'

/-- The word of a switch. -/
def word : Switch → String
  | help => "--help"
  | verbose => "--verbose"
  | expression => "--expression"
  | prompt => "--prompt"
  | describe => "--describe"
  | json => "--json"
  | rawGrammar => "--raw-grammar"
  | dump => "--dump"

/-- What a switch takes. -/
def arity : Switch → Arity
  | expression => .remainder
  | prompt => .optional
  | _ => .nothing

/-- The switch that must not be given with this one. -/
def rival? : Switch → Option Switch
  | expression => some prompt
  | prompt => some expression
  | describe => some json
  | json => some describe
  | rawGrammar => some dump
  | dump => some rawGrammar
  | help | verbose => none

/-- The short form of a switch. -/
def short (s : Switch) : Text := Text.ofChars ['-', s.letter]

/-- The long form of a switch. -/
def long (s : Switch) : Text := Text.ofString s.word

/-- What a message calls a switch. -/
def name (s : Switch) : Text := s.short ++ "/" ++ s.long

/-- The switch with this short or long form. -/
def ofText? (t : Text) : Option Switch := all.find? fun s => s.short = t || s.long = t

/-- The switch with this letter. -/
def ofLetter? (c : CodePoint) : Option Switch := all.find? fun s => .scalar s.letter = c

end Switch

/-- The name of the program. -/
def programName : String := "expression-parser"

/-- The usage line. -/
def usage : Text :=
  "usage: expression-parser [-h] [-v] [-e ... | -p [PROMPT]] [-d | -j] [-G | -D]\n"

/-- The text of the switch `--help`. -/
def helpText : Text :=
  usage ++
    ("\nArithmetic expression evaluator\n" ++
      "\noptions:\n" ++
      "  -h, --help            show this help message and exit\n" ++
      "  -v, --verbose\n" ++
      "  -e ..., --expression ...\n" ++
      "  -p [PROMPT], --prompt [PROMPT]\n" ++
      "  -d, --describe\n" ++
      "  -j, --json\n" ++
      "  -G, --raw-grammar\n" ++
      "  -D, --dump\n" : String)

end Reckoner.CommandLine
