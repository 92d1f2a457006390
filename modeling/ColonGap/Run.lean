import ColonGap.Config.Load
import ColonGap.Config.Override
import ColonGap.Config.Settings
import ColonGap.Report
import ColonGap.Run.Result

/-!
# Runs

A run loads a configuration, resolves the rules, expands the arguments, processes the targets
and reports. It is a function from an environment to an outcome: the file tree, standard input
and what becomes of texts that are written are part of the one, and the texts written, the changed
tree and the exit code are part of the other.
-/

namespace ColonGap

namespace Run

/-- What is asked of a run. -/
structure Request where
  /-- Files and directories; `-` stands for standard input, and so does no path at all. -/
  paths : List Bytes
  mode : Mode
  /-- The format of the report; the empty one leaves it to the configuration. -/
  format : Bytes
  /-- Overrides of rule options. -/
  overrides : List Bytes
  /-- The path of the configuration; the empty one leaves it to be searched for. -/
  configPath : Bytes
  /-- Whether warnings are left out of the report. -/
  quiet : Bool
  /-- Whether everything is logged. -/
  verbose : Bool

namespace Request

/-- The plain check of some paths. -/
def check (paths : List Bytes) : Request := ⟨paths, .check, [], [], [], false, false⟩

/-- The least level of what is logged. -/
def logLevel (r : Request) : Log.Level :=
  .threshold r.quiet r.verbose

end Request

/-- What a run finds around it. -/
structure Environment where
  workspace : Workspace
  /-- What standard input holds, or the message of the error that reading it ends with. -/
  stdin : Except Bytes Bytes
  /-- The message of the error that writing to standard output ends with, if it does. -/
  stdoutError : Option Bytes
  /-- Whether the run is called off before the targets are processed. -/
  interrupted : Bool
  /-- What keeps fixed files from being written. -/
  writeFaults : WriteFaults := .none

/-- What a run leaves behind. -/
structure Outcome where
  exit : Exit
  stdout : Bytes
  stderr : Bytes
  workspace : Workspace

/-! ### Configuration -/

/-- Why a run has no configuration. -/
inductive SetupError where
  | load (error : Config.LoadError)
  | invalid (reason : Config.Invalid)

/-- The wording of a setup error. -/
def SetupError.message : SetupError → Bytes
  | load error => error.message
  | invalid reason => reason.message

/-- The configuration of a run: the one that is loaded, with the format and the overrides that
are asked for. -/
def configure (w : Workspace) (r : Request) : Except SetupError Config :=
  match Config.load w r.configPath with
  | .error e => .error (.load e)
  | .ok c =>
    let c := if r.format.isEmpty then c else { c with format := r.format }
    match c.override r.overrides with
    | .error reason => .error (.invalid reason)
    | .ok c => c.validate.mapError .invalid

/-! ### Results -/

/-- The failures that are left after all results. -/
def remaining (results : List Result) : List Failure :=
  results.flatMap Result.remaining

/-- How a run with some results ends. -/
def exitOf (expansion : Target.Expansion) (results : List Result) : Exit :=
  results.foldl (fun exit result ↦ exit.worse result.exit)
    (if expansion.failed then .error else .clean)

/-- What is logged when a target is taken up. -/
def lintingEntry (t : Target) : Log.Entry :=
  Log.debug "linting" [("path", .text t.name)]

/-- An entry about an error. -/
def errorEntry (message : String) (error : Bytes) : Log.Entry :=
  Log.error message [("error", .reason error)]

/-! ### Outcomes -/

/-- The outcome of a run that ends with an error before anything is processed. -/
def stopped (env : Environment) (r : Request) (log : List Log.Entry) : Outcome :=
  ⟨.error, [], Log.render r.logLevel log, env.workspace⟩

/-- What is left of a text that is written to standard output. -/
def recorded (env : Environment) (text : Bytes) : Bytes :=
  if env.stdoutError.isSome then [] else text

/-- The report of a run. -/
def reportText (format : Report.Format) (registry : Registry) (r : Request)
    (results : List Result) : Bytes :=
  let failures := remaining results
  format.render registry.all (if r.quiet then Failure.errorsOnly failures else failures)

/-- Write the report, unless diffs take its place. The fixed text of standard input needs
standard output for itself, so the report then goes to standard error. An empty report writes
nothing. -/
def finish (env : Environment) (r : Request) (w : Workspace) (log : List Log.Entry) (exit : Exit)
    (onStderr : Bool) (output report : Bytes) : Outcome :=
  let written := Log.render r.logLevel log
  if r.mode == .diff then ⟨exit, recorded env output, written, w⟩
  else if onStderr then ⟨exit, recorded env output, written ++ report, w⟩
  else
    match env.stdoutError, report.isEmpty with
    | some message, false =>
      let failure := errorEntry "writing report" message
      ⟨.error, [], Log.render r.logLevel (log ++ [failure]), w⟩
    | _, _ => ⟨exit, recorded env (output ++ report), written, w⟩

/-- Process targets and report. -/
def runTargets (env : Environment) (r : Request) (registry : Registry) (settings : List Setting)
    (format : Report.Format) (log : List Log.Entry) (expansion : Target.Expansion) : Outcome :=
  let targets := expansion.targets
  let log := log ++ expansion.log
  if env.interrupted && !targets.isEmpty then
    stopped env r (log ++ [errorEntry "lint interrupted" (utf8 "context canceled")])
  else
    let (w, results) := processAll r.mode settings env.stdin env.writeFaults env.workspace targets
    finish env r w (log ++ targets.map lintingEntry ++ results.flatMap Result.log)
      (exitOf expansion results) (r.mode == .fix && targets.any (·.isStdin))
      (results.flatMap Result.output) (reportText format registry r results)

end Run

/-- Run. -/
def run (registry : Registry) (env : Run.Environment) (r : Run.Request) : Run.Outcome :=
  match Run.configure env.workspace r with
  | .error e => Run.stopped env r [Run.errorEntry "loading config" e.message]
  | .ok c =>
    match c.settings registry with
    | (log, .error reason) =>
      Run.stopped env r (log ++ [Run.errorEntry "configuring rules" reason.message])
    | (log, .ok settings) =>
      match Report.Format.ofName? c.format with
      | none =>
        let message := Report.Format.unknownMessage c.format
        Run.stopped env r (log ++ [Run.errorEntry "configuring report" message])
      | some format =>
        Run.runTargets env r registry settings format log
          (Target.expand env.workspace c r.paths)

end ColonGap
