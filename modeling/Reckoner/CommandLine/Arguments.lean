import Reckoner.CommandLine.Switch
import Reckoner.Text.Digit

/-!
# Reading the arguments

An argument is first classified on its own (`Argument.classify`): it is a switch, maybe with a
value attached to it, or an unknown switch, or a plain word. A unique beginning of a long form
stands for the switch; the letters of switches that take nothing can be joined behind one hyphen;
a value can be attached to a long form or a letter with an equals sign, and to a letter directly.
Behind an argument `--` there are only plain words.

Then the switches act from left to right on the `Settings`. Whatever no switch has taken is
reported when all is done.
-/

namespace Reckoner.CommandLine

/-- How the result of an expression is printed. -/
inductive Output where
  | value
  | description
  | json
deriving DecidableEq

/-- What is done with the input. -/
inductive Task where
  | evaluate
  | printGrammar
  | dumpTokens
deriving DecidableEq

/-- What the arguments ask for. -/
structure Settings where
  verbose : Bool
  /-- The expressions given as arguments. -/
  expressions : Option (List Text)
  /-- The prompt, if there is to be one. -/
  prompt : Option Text
  output : Output
  task : Task
deriving DecidableEq

/-- The settings if there are no arguments. -/
def Settings.initial : Settings := ⟨false, none, none, .value, .evaluate⟩

/-- The prompt that is shown unless another one is given. -/
def defaultPrompt : Text := "> "

/-- Why arguments make no sense. -/
inductive UsageError where
  /-- An argument begins the long forms of several switches. -/
  | ambiguous (argument : Text) (forms : List Text)
  /-- A switch that takes nothing has a value attached to it. -/
  | unexpectedValue (s : Switch) (value : Text)
  | rivals (s rival : Switch)
  | unrecognized (arguments : List Text)
deriving DecidableEq

/-- The message of a usage error. -/
def UsageError.message : UsageError → Text
  | ambiguous argument forms =>
    "ambiguous option: " ++ argument ++ " could match " ++ Text.joined ", " forms
  | unexpectedValue s value =>
    "argument " ++ s.name ++ ": ignored explicit argument " ++ value.quoted
  | rivals s rival =>
    "argument " ++ s.name ++ ": not allowed with argument " ++ rival.name
  | unrecognized arguments => "unrecognized arguments: " ++ Text.joined " " arguments

/-! ### Single arguments -/

/-- What an argument is on its own. -/
inductive Class where
  | plain
  /-- The argument `--`, behind which everything is plain. -/
  | separator
  | unknown
  /-- A switch in its long or short form, and the value attached to it. -/
  | switch (s : Switch) (long : Bool) (value : Option Text)
deriving DecidableEq

/-- A text cut at its first equals sign. -/
def cutAtEquals (t : Text) : Option (Text × Text) :=
  match t.span (· != .scalar '=') with
  | (_, []) => none
  | (before, _ :: after) => some (before, after)

/-- Whether an argument is a negative number: digits, and maybe a point with digits behind it. A
line feed at its end does not count. -/
def looksNegative (t : Text) : Bool :=
  match t with
  | .scalar '-' :: t =>
    let t := if t.getLast? = some (.scalar '\n') then t.dropLast else t
    let behind := t.dropWhile CodePoint.isDecimalDigit
    match behind with
    | [] => !t.isEmpty
    | .scalar '.' :: fraction => !fraction.isEmpty && fraction.all CodePoint.isDecimalDigit
    | _ => false
  | _ => false

/-- What an argument is that is no form of a switch. -/
def classifyOther (t : Text) : Class :=
  if looksNegative t || t.contains (.scalar ' ') then .plain else .unknown

/-- The switches whose long form an argument begins, with its value. -/
def abbreviated (t : Text) : List Switch × Option Text :=
  let (beginning, value) :=
    match cutAtEquals t with
    | some (beginning, value) => (beginning, some value)
    | none => (t, none)
  (Switch.all.filter fun s => beginning.isPrefixOf s.long, value)

/-- Classify an argument. -/
def classify (t : Text) : Except UsageError Class :=
  match t with
  | .scalar '-' :: second :: more =>
    match Switch.ofText? t with
    | some s => .ok (.switch s (second = .scalar '-') none)
    | none =>
      match (cutAtEquals t).bind fun (form, value) => (Switch.ofText? form).map (·, value) with
      | some (s, value) => .ok (.switch s (second = .scalar '-') (some value))
      | none =>
        if second = .scalar '-' then
          match abbreviated t with
          | ([], _) => .ok (classifyOther t)
          | ([s], value) => .ok (.switch s true value)
          | (switches, _) => .error (.ambiguous t (switches.map Switch.long))
        else
          match Switch.ofLetter? second with
          | some s => .ok (.switch s false (some more))
          | none => .ok (classifyOther t)
  | _ => .ok .plain

/-- Classify all arguments. -/
def classifyAll : List Text → Except UsageError (List (Text × Class))
  | [] => .ok []
  | t :: ts =>
    if t = Text.ofString "--" then .ok ((t, .separator) :: ts.map fun t => (t, .plain))
    else do
      let c ← classify t
      let cs ← classifyAll ts
      .ok ((t, c) :: cs)

/-! ### Switches with their values -/

/-- A switch and what it takes. -/
abbrev Application := Switch × List Text

/-- What the last switch of an argument takes from the arguments behind it, and the rest. -/
def takeFollowing (s : Switch) (behind : List (Text × Class)) :
    List Text × List (Text × Class) :=
  match s.arity with
  | .nothing => ([], behind)
  | .optional =>
    match behind with
    | (t, .plain) :: rest => ([t], rest)
    | _ => ([], behind)
  | .remainder =>
    let taken := behind.takeWhile fun a => a.2 ≠ .separator
    (taken.map Prod.fst, behind.drop taken.length)

/-- The switches in one argument, the last one of which may still take something. A value attached
to the letter of a switch that takes nothing is made of further letters. -/
def unjoin (s : Switch) (long : Bool) (value : Text) :
    Except UsageError (List Application × Option Switch) :=
  match s.arity with
  | .optional | .remainder => .ok ([(s, [value])], none)
  | .nothing =>
    if long then .error (.unexpectedValue s value)
    else
      match value with
      | [] => .error (.unexpectedValue s value)
      | letter :: more =>
        match Switch.ofLetter? letter with
        | none => .error (.unexpectedValue s value)
        | some s' =>
          if more.isEmpty then .ok ([(s, [])], some s')
          else (unjoin s' false more).map fun (applications, last) => ((s, []) :: applications, last)
termination_by value.length

/-- The switches in one argument with what they take, and the arguments behind that. -/
def applications (s : Switch) (long : Bool) (value : Option Text) (behind : List (Text × Class)) :
    Except UsageError (List Application × List (Text × Class)) :=
  match value with
  | none =>
    let (taken, rest) := takeFollowing s behind
    .ok ([(s, taken)], rest)
  | some value => do
    match ← unjoin s long value with
    | (all, none) => .ok (all, behind)
    | (all, some last) =>
      let (taken, rest) := takeFollowing last behind
      .ok (all ++ [(last, taken)], rest)

/-! ### The settings -/

/-- What reading the arguments leads to, unless they make no sense. -/
inductive Request where
  | help
  | run (settings : Settings)
deriving DecidableEq

/-- The settings so far, the switches that were given, and the arguments that none has taken. -/
structure Progress where
  settings : Settings
  given : List Switch
  extras : List Text

/-- Let a switch act on the settings. -/
def Settings.apply (settings : Settings) (s : Switch) (taken : List Text) : Settings :=
  match s with
  | .help => settings
  | .verbose => { settings with verbose := true }
  | .expression => { settings with expressions := some taken }
  | .prompt =>
    { settings with prompt := some ((taken.erase (Text.ofString "--")).headD defaultPrompt) }
  | .describe => { settings with output := .description }
  | .json => { settings with output := .json }
  | .rawGrammar => { settings with task := .printGrammar }
  | .dump => { settings with task := .dumpTokens }

/-- Let switches act one after another. Asking for help ends the reading. -/
def applyAll : List Application → Progress → Except UsageError (Option Progress)
  | [], progress => .ok (some progress)
  | (s, taken) :: applications, progress =>
    match s.rival?.filter progress.given.contains with
    | some rival => .error (.rivals s rival)
    | none =>
      if s = .help then .ok none
      else
        applyAll applications
          { progress with
            settings := progress.settings.apply s taken, given := s :: progress.given }

/-- What a switch takes is not left behind. -/
theorem length_takeFollowing_le (s : Switch) (behind : List (Text × Class)) :
    (takeFollowing s behind).2.length ≤ behind.length := by
  unfold takeFollowing
  split
  · exact Nat.le_refl _
  · split
    · exact Nat.le_succ _
    · exact Nat.le_refl _
  · simp

theorem length_applications_le {s : Switch} {long : Bool} {value : Option Text}
    {behind rest : List (Text × Class)} {all : List Application}
    (h : applications s long value behind = .ok (all, rest)) : rest.length ≤ behind.length := by
  unfold applications at h
  split at h
  · cases h
    exact length_takeFollowing_le _ _
  · cases hu : unjoin s long _ with
    | error e => rw [hu] at h; cases h
    | ok r =>
      obtain ⟨all', last⟩ := r
      rw [hu] at h
      cases last with
      | none => cases h; exact Nat.le_refl _
      | some last => cases h; exact length_takeFollowing_le _ _

/-- Go through classified arguments from left to right. -/
def readClassified (arguments : List (Text × Class)) (progress : Progress) :
    Except UsageError (Option Progress) :=
  match arguments with
  | [] => .ok (some progress)
  | (_, .switch s long value) :: behind =>
    match h : applications s long value behind with
    | .error e => .error e
    | .ok (all, rest) =>
      match applyAll all progress with
      | .error e => .error e
      | .ok none => .ok none
      | .ok (some progress) =>
        have := length_applications_le h
        readClassified rest progress
  | (t, _) :: behind => readClassified behind { progress with extras := progress.extras ++ [t] }
termination_by arguments.length

/-- What a list of arguments asks for. -/
def read (arguments : List Text) : Except UsageError Request := do
  let classified ← classifyAll arguments
  match ← readClassified classified ⟨.initial, [], []⟩ with
  | none => .ok .help
  | some progress =>
    if progress.extras.isEmpty then .ok (.run progress.settings)
    else .error (.unrecognized progress.extras)

end Reckoner.CommandLine
