import ColonGap.Diff
import ColonGap.Exit
import ColonGap.Lint
import ColonGap.Log
import ColonGap.Target

/-!
# Processing one target

A target is read, linted, and in two of the three modes fixed. What comes of it is a value: the
failures that are left, what was fixed, and the text to write. Only `Run.process` touches the
workspace, and only to write a fixed file.
-/

namespace ColonGap

namespace Run

/-- What a run does with the failures it finds. -/
inductive Mode where
  /-- Report them. -/
  | check
  /-- Mend what can be mended and report the rest. -/
  | fix
  /-- Show how the files would change. -/
  | diff
deriving DecidableEq, Repr

/-- Why a target has no result. -/
inductive TargetError where
  /-- Standard input cannot be read; the message says why. -/
  | stdin (message : Bytes)
  | unreadable (error : AccessError)
  | unparsable (error : SourceFile.ParseError)
  /-- The fixed source cannot be parsed. -/
  | broken (error : SourceFile.ParseError)
  /-- The fixed source cannot be written. -/
  | unwritable (path : Bytes) (fault : WriteFault)
deriving DecidableEq, Repr

/-- The wording of an error. -/
def TargetError.message : TargetError → Bytes
  | stdin message => utf8 "reading stdin: " ++ message
  | unreadable error => error.message
  | unparsable error => error.message
  | broken error => Lint.reparseMessage error
  | unwritable path fault => utf8 "writing " ++ path ++ utf8 ": " ++ fault.message path

/-- What comes of a source. -/
structure Findings where
  /-- The failures that are left. -/
  failures : List Failure
  /-- The failures that were mended. -/
  applied : List Failure
  /-- The source as it is after mending. -/
  output : Bytes

/-- Lint a source, and mend it unless it is only checked. -/
def examine (mode : Mode) (settings : List Setting) (name source : Bytes) :
    Except TargetError Findings :=
  match SourceFile.parse name source with
  | .error e => .error (.unparsable e)
  | .ok file =>
    let failures := Lint.run file settings
    match mode with
    | .check => .ok ⟨failures, [], source⟩
    | .fix | .diff =>
      match Lint.fixAll file settings failures with
      | .error e => .error (.broken e)
      | .ok fixed => .ok ⟨fixed.remaining, fixed.applied, fixed.output⟩

/-- The outcome of a target. -/
structure Result where
  name : Bytes
  failures : List Failure
  applied : List Failure
  /-- The source that is written to standard output, if it came from standard input. -/
  fixed : Option Bytes
  /-- The diff that is shown. -/
  diff : Bytes
  error : Option TargetError

namespace Result

/-- The result of a target that failed. -/
def failed (name : Bytes) (error : TargetError) : Result :=
  ⟨name, [], [], none, [], some error⟩

/-- The result of a target with some findings. -/
def ofFindings (mode : Mode) (target : Target) (source : Bytes) (found : Findings) : Result where
  name := target.name
  failures := found.failures
  applied := found.applied
  fixed := if mode == .fix && target.isStdin then some found.output else none
  diff := if mode == .diff then Diff.unified target.name source found.output else []
  error := none

/-- The result of a target whose source was fixed, and then perhaps not written. -/
def withFault (r : Result) (fault : Option WriteFault) : Result :=
  { r with error := fault.map (.unwritable r.name) }

/-- What a result writes to standard output; with an error it writes nothing. -/
def output (r : Result) : Bytes :=
  if r.error.isSome then [] else r.fixed.getD [] ++ r.diff

/-- The failures that a result leaves; with an error there is nothing to say about them. -/
def remaining (r : Result) : List Failure :=
  if r.error.isSome then [] else r.failures

/-- How a run with this result alone ends. -/
def exit (r : Result) : Exit :=
  if r.error.isSome then .error
  else if !r.diff.isEmpty || r.failures.any (·.severity == Severity.error) then .failures
  else .clean

/-- What is logged about a result. -/
def log (r : Result) : List Log.Entry :=
  match r.error with
  | some e =>
    [Log.error "linting file" [("path", .text r.name), ("error", .reason e.message)]]
  | none =>
    (if r.applied.isEmpty then []
      else [Log.debug "applied fixes" [("path", .text r.name), ("count", .count r.applied.length)]])
      ++ r.failures.map fun f ↦ Log.debug "failure" [("detail", .text f.summary)]

end Result

/-- The source of a target; reading standard input may end with a message instead. -/
def sourceOf (w : Workspace) (stdin : Except Bytes Bytes) (target : Target) :
    Except TargetError Bytes :=
  if target.isStdin then stdin.mapError .stdin else (w.read target.name).mapError .unreadable

/-- Process a target. A file is written if mending changed it. -/
def process (mode : Mode) (settings : List Setting) (stdin : Except Bytes Bytes)
    (faults : WriteFaults) (w : Workspace) (target : Target) : Workspace × Result :=
  match sourceOf w stdin target with
  | .error e => (w, .failed target.name e)
  | .ok source =>
    match examine mode settings target.name source with
    | .error e => (w, .failed target.name e)
    | .ok found =>
      let result := .ofFindings mode target source found
      if mode == .fix && !target.isStdin && found.output != source then
        let (w, fault) := w.store faults target.name found.output
        (w, result.withFault fault)
      else (w, result)

/-- Process targets in order. -/
def processAll (mode : Mode) (settings : List Setting) (stdin : Except Bytes Bytes)
    (faults : WriteFaults) : Workspace → List Target → Workspace × List Result
  | w, [] => (w, [])
  | w, target :: targets =>
    let (w, result) := process mode settings stdin faults w target
    let (w, results) := processAll mode settings stdin faults w targets
    (w, result :: results)

end Run

end ColonGap
