import StyleSheet.Path

/-!
# Command-line arguments

A command line is options, a command, and the options and the operand of the command.
`-q` and `-v` can stand on both sides of the command; what is said after the command
holds, and where nothing is said there, what is said before it.  Only `-v` can be
repeated on one side.

Short options can be written together, and the value of `-o` can follow it directly,
after an equals sign, or as the next argument, which then must not look like an option.
After `--` every argument is an operand.  A file or a directory needs a name: no operand
and no value of `-o` is empty.

Arguments are read from left to right, so that a question for the version is answered
even if what follows it is wrong.
-/

namespace StyleSheet

/-- What is asked of the program, with the files it is about. -/
inductive Command where
  | generate (manifest outDir : Path)
  | check (manifest outDir : Path)
  | dump (file : Path)
  deriving DecidableEq

/-- The commands by name. -/
inductive CommandName where
  | generate
  | check
  | dump
  deriving DecidableEq

namespace CommandName

/-- The command of a word. -/
def ofText? (word : String) : Option CommandName :=
  if word = "generate" then some .generate
  else if word = "check" then some .check
  else if word = "dump" then some .dump
  else none

/-- Whether the command takes an output directory. -/
def takesOutDir : CommandName → Bool
  | .generate => true
  | .check => true
  | .dump => false

end CommandName

/-- How much is said. -/
structure Verbosity where
  quiet : Bool
  verbose : Nat
  deriving DecidableEq

namespace Verbosity

/-- Nothing said. -/
def unset : Verbosity := ⟨false, 0⟩

/-- Sets quietness, which can be done once. -/
def hush? (v : Verbosity) : Option Verbosity :=
  if v.quiet then none else some { v with quiet := true }

/-- What holds, of what is said before and after the command. -/
def override (before after : Verbosity) : Verbosity :=
  ⟨before.quiet || after.quiet, if after.verbose = 0 then before.verbose else after.verbose⟩

end Verbosity

/-- A command line that is understood. -/
inductive Request where
  | version
  | run (command : Command) (verbosity : Verbosity)
  deriving DecidableEq

namespace Arguments

/-- What is known while the arguments after a command are read. -/
structure State where
  verbosity : Verbosity
  outDir : Option String
  operands : List String
  /-- The next argument is the output directory. -/
  awaiting : Bool
  /-- Every argument is an operand. -/
  literal : Bool
  deriving DecidableEq

def State.start : State := ⟨.unset, none, [], false, false⟩

/-- Whether an argument looks like options. -/
def looksLikeOption (arg : String) : Bool :=
  match arg.toList with
  | '-' :: _ :: _ => true
  | _ => false

/-- Sets the output directory, which can be done once. -/
def State.setOutDir (state : State) (dir : List Char) : Option State :=
  if state.outDir.isSome || dir.isEmpty then none
  else some { state with outDir := some (String.ofList dir), awaiting := false }

/-- Short options written together, after a command. -/
def shortOptions (command : CommandName) : List Char → State → Option State
  | [], state => some state
  | 'q' :: cs, state =>
    match state.verbosity.hush? with
    | some v => shortOptions command cs { state with verbosity := v }
    | none => none
  | 'v' :: cs, state =>
    shortOptions command cs
      { state with verbosity.verbose := state.verbosity.verbose + 1 }
  | 'o' :: cs, state =>
    if !command.takesOutDir || state.outDir.isSome then none
    else
      match cs with
      | [] => some { state with awaiting := true }
      | '=' :: dir => state.setOutDir dir
      | dir => state.setOutDir dir
  | _, _ => none

/-- One long option after a command, without its dashes. -/
def longOption (command : CommandName) (option : List Char) (state : State) : Option State :=
  let name := option.takeWhile (· ≠ '=')
  let value := option.dropWhile (· ≠ '=')
  if name = "out-dir".toList ∧ command.takesOutDir then
    match value with
    | [] => if state.outDir.isSome then none else some { state with awaiting := true }
    | _ :: dir => state.setOutDir dir
  else if value ≠ [] then none
  else if name = "quiet".toList then
    match state.verbosity.hush? with
    | some v => some { state with verbosity := v }
    | none => none
  else if name = "verbose".toList then
    some { state with verbosity.verbose := state.verbosity.verbose + 1 }
  else none

/-- One argument after a command. -/
def step (command : CommandName) (state : State) (arg : String) : Option State :=
  if state.awaiting then
    if looksLikeOption arg then none else state.setOutDir arg.toList
  else if state.literal || !looksLikeOption arg then
    if arg = "" then none else some { state with operands := state.operands ++ [arg] }
  else
    match arg.toList with
    | ['-', '-'] => some { state with literal := true }
    | '-' :: '-' :: option => longOption command option state
    | _ :: options => shortOptions command options state
    | [] => none

/-- The command of a name, its operand, and an output directory if it takes one. -/
def command (name : CommandName) (operand : String) (outDir : Option String) : Command :=
  let dir : Path := ⟨outDir.getD "."⟩
  match name with
  | .generate => .generate ⟨operand⟩ dir
  | .check => .check ⟨operand⟩ dir
  | .dump => .dump ⟨operand⟩

/-- The request of a command with the arguments after it. -/
def afterCommand (name : CommandName) (before : Verbosity) (args : List String) :
    Option Request :=
  match args.foldlM (step name) State.start with
  | none => none
  | some state =>
    if state.awaiting then none
    else
      match state.operands with
      | [operand] =>
        some (.run (command name operand state.outDir) (before.override state.verbosity))
      | _ => none

/-- What options before a command come to. -/
inductive Before where
  | version
  | verbosity (v : Verbosity)

/-- Short options written together, before a command. -/
def shortBefore : List Char → Verbosity → Option Before
  | [], v => some (.verbosity v)
  | 'V' :: _, _ => some .version
  | 'q' :: cs, v =>
    match v.hush? with
    | some v => shortBefore cs v
    | none => none
  | 'v' :: cs, v => shortBefore cs { v with verbose := v.verbose + 1 }
  | _, _ => none

/-- One argument with options, before a command. -/
def optionBefore (arg : String) (v : Verbosity) : Option Before :=
  if arg = "--version" then some .version
  else if arg = "--quiet" then v.hush?.map .verbosity
  else if arg = "--verbose" then some (.verbosity { v with verbose := v.verbose + 1 })
  else
    match arg.toList with
    | '-' :: '-' :: _ => none
    | '-' :: options => shortBefore options v
    | _ => none

/-- The request of a command line from some argument on. -/
def parseFrom (v : Verbosity) : List String → Option Request
  | [] => none
  | arg :: args =>
    if looksLikeOption arg then
      match optionBefore arg v with
      | none => none
      | some .version => some .version
      | some (.verbosity v) => parseFrom v args
    else
      match CommandName.ofText? arg with
      | none => none
      | some name => afterCommand name v args

/-- The request of a command line, if it is understood. -/
def parse (args : List String) : Option Request := parseFrom .unset args

end Arguments
end StyleSheet
