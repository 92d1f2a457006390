import ColonGap.CommandLine.Flag
import ColonGap.CommandLine.Page
import ColonGap.Listing
import ColonGap.Run

/-!
# The command line

The first word among the arguments may name a command; otherwise the arguments ask for a run.
A flag that is not known yet is taken to have a value when that word is looked for, so the word
behind it is passed over. Help comes before everything else, then the version, then the work.
-/

namespace ColonGap

namespace CommandLine

/-- What is wrong with a command line. -/
inductive Error where
  | flag (error : FlagError)
  /-- A command that takes no arguments has one. -/
  | unexpected (argument : Bytes) (command : String)
  /-- Fixing and showing diffs exclude each other. -/
  | fixAndDiff
  /-- The answer cannot be written. -/
  | output (message : Bytes)
deriving DecidableEq, Repr

/-- The wording of an error. -/
def Error.message : Error → Bytes
  | flag error => error.message
  | unexpected argument command =>
    utf8 "unknown command " ++ quoted argument ++ utf8 " for " ++ quoted (utf8 command)
  | fixAndDiff => utf8 "--fix and --diff are mutually exclusive"
  | output message => message

/-- The flags of a run. -/
def runFlags : List Flag :=
  [.fix, .diff, .format, .config, .rule, .quiet, .verbose]

/-- The flags of a command. -/
def Command.flags : Command → List Flag
  | lint => runFlags ++ [.help, .version]
  | rules => [.long, .help]
  | help => [.help]
  | completion => [.help]

/-- The version of the program. -/
def version : String := "dev (none) unknown"

/-! ### Finding the command -/

/-- Whether an argument is a flag that takes the next argument for its value, as far as the
flags of a run tell. A flag that is not one of them is taken to do so. -/
def takesNext (argument : Bytes) : Bool :=
  if argument.contains 61 then false
  else
    match argument with
    | 45 :: 45 :: name => !runFlags.any fun f ↦ f.isSwitch && utf8 f.name == name
    | [45, letter] => !runFlags.any fun f ↦ f.isSwitch && f.letter? == some letter
    | _ => false

/-- The first word that is neither a flag nor the value of one, and the arguments without it. A
flag that takes the last argument ends the search. -/
def firstWord? : List Bytes → Option (Bytes × List Bytes)
  | [] => none
  | argument :: rest =>
    if argument == utf8 "--" then none
    else if takesNext argument then
      match rest with
      | value :: word :: more =>
        (firstWord? (word :: more)).map fun (w, rest) ↦ (w, argument :: value :: rest)
      | _ => none
    else if argument.isEmpty || argument.head? == some 45 then
      (firstWord? rest).map fun (w, rest) ↦ (w, argument :: rest)
    else some (argument, rest)

/-- The command of some arguments, and the arguments without its name. -/
def command (arguments : List Bytes) : Command × List Bytes :=
  match firstWord? arguments with
  | none => (.lint, arguments)
  | some (word, rest) =>
    match Command.ofWord? word with
    | none => (.lint, arguments)
    | some c => (c, rest)

/-! ### Working -/

/-- The request of a run. -/
def request (a : Arguments) : Except Error Run.Request :=
  if a.isOn .fix && a.isOn .diff then .error .fixAndDiff
  else
    .ok
      { paths := a.others
        mode := if a.isOn .fix then .fix else if a.isOn .diff then .diff else .check
        format := a.text .format
        overrides := a.values .rule
        configPath := a.text .config
        quiet := a.isOn .quiet
        verbose := a.isOn .verbose }

/-- The outcome of a command line that is refused. -/
def refused (env : Run.Environment) (e : Error) : Run.Outcome :=
  ⟨.error, [], utf8 "colonlint: " ++ e.message ++ utf8 "\n", env.workspace⟩

/-- Write a text to standard output, whether that succeeds or not. -/
def printed (env : Run.Environment) (text : Bytes) : Run.Outcome :=
  ⟨.clean, Run.recorded env text, [], env.workspace⟩

/-- Write a text to standard output; it is an error if that fails. -/
def answered (env : Run.Environment) (text : Bytes) : Run.Outcome :=
  match env.stdoutError with
  | some message => refused env (.output message)
  | none => printed env text

/-- Carry out a command whose flags have been read. -/
def perform (registry : Registry) (env : Run.Environment) (c : Command) (a : Arguments) :
    Run.Outcome :=
  match c with
  | .lint =>
    if a.isOn .version then
      answered env (utf8 "colonlint version " ++ utf8 version ++ utf8 "\n")
    else
      match request a with
      | .error e => refused env e
      | .ok r => run registry env r
  | .rules =>
    match a.others with
    | argument :: _ => refused env (.unexpected argument "colonlint rules")
    | [] =>
      if a.isOn .long then printed env (registry.all.flatMap Listing.description)
      else answered env (Listing.table registry.all)
  | .help => printed env (command a.others).1.page
  | .completion => printed env Command.completion.page

/-- Carry out a command line. -/
def execute (registry : Registry) (env : Run.Environment) (arguments : List Bytes) :
    Run.Outcome :=
  let (c, rest) := command arguments
  match readArguments c.flags false rest with
  | .error e => refused env (.flag e)
  | .ok a => if a.isOn .help then printed env c.page else perform registry env c a

end CommandLine

end ColonGap
