import ColonGap.Fix
import ColonGap.Ordering
import ColonGap.Rule

/-!
# Linting a file

`Lint.run` merges the failures of the enabled rules, and `Lint.fixAll` applies their fixes and
lints again until nothing is left to do.
-/

namespace ColonGap

/-- A rule that is enabled for a run. -/
structure Setting where
  rule : Rule
  /-- Its severity; an empty one means an error. -/
  severity : Severity
  option : OptionValue

namespace Lint

/-- Stamp a failure of a rule with the rule, the severity, the file and its positions. -/
def stamp (file : SourceFile) (setting : Setting) (f : Failure) : Failure :=
  { f with
    rule := setting.rule.name
    severity := if setting.severity.isEmpty then Severity.error else setting.severity
    file := file.name
    position := file.position f.start
    endPosition := file.position f.stop }

/-- The order of failures: by start, then by rule. -/
def precedes (f g : Failure) : Bool :=
  if f.start == g.start then f.rule.le g.rule else f.start < g.start

/-- The failures of a file under some settings. -/
def run (file : SourceFile) (settings : List Setting) : List Failure :=
  sortBy precedes <| settings.flatMap fun s ↦ (s.rule.check file s.option).map (stamp file s)

/-- How often a file is linted again after fixes that were skipped. -/
def maxFixPasses : Nat := 10

/-- A fixed source, what was fixed, and what is left. -/
structure Fixed where
  output : Bytes
  applied : List Failure
  remaining : List Failure

/-- Apply fixes in at most `passes` rounds, until nothing applies or nothing was skipped. The
error is that a fixed source could not be parsed again. -/
def fixPasses (name : Bytes) (settings : List Setting) :
    (passes : Nat) → (source : Bytes) → List Failure → Except SourceFile.ParseError Fixed
  | 0, source, failures => .ok ⟨source, [], failures⟩
  | passes + 1, source, failures =>
    let outcome := Fix.apply source failures
    if outcome.applied.isEmpty then .ok ⟨source, [], failures⟩
    else
      match SourceFile.parse name outcome.output with
      | .error e => .error e
      | .ok next =>
        let failures := run next settings
        if outcome.skipped.isEmpty then .ok ⟨outcome.output, outcome.applied, failures⟩
        else
          match fixPasses name settings passes outcome.output failures with
          | .error e => .error e
          | .ok fixed => .ok { fixed with applied := outcome.applied ++ fixed.applied }

/-- Apply the fixes of a file that has been linted. -/
def fixAll (file : SourceFile) (settings : List Setting) (failures : List Failure) :
    Except SourceFile.ParseError Fixed :=
  fixPasses file.name settings maxFixPasses file.source failures

/-- What is said of a fixed source that could not be parsed again. -/
def reparseMessage (e : SourceFile.ParseError) : Bytes :=
  utf8 "re-parsing fixed source: " ++ e.message

end Lint

end ColonGap
