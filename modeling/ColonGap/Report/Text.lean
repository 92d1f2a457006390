import ColonGap.Failure

/-!
# The text report

One line for each failure, its fields between tabs, and a summary. No failures, no report.
-/

namespace ColonGap.Report

/-- The line of a failure. -/
def textLine (f : Failure) : Bytes :=
  f.file ++ utf8 ":" ++ signedDecimal f.position.line ++ utf8 ":"
    ++ signedDecimal f.position.column ++ utf8 "\t" ++ f.severity ++ utf8 "\t" ++ f.rule
    ++ utf8 "\t" ++ f.message ++ (if f.fix.isSome then utf8 " [fixable]" else []) ++ utf8 "\n"

/-- The text report. -/
def text (failures : List Failure) : Bytes :=
  if failures.isEmpty then []
  else
    let (errors, warnings) := Failure.count failures
    failures.flatMap textLine ++ utf8 "\n" ++ decimal failures.length ++ utf8 " problems ("
      ++ decimal errors ++ utf8 " errors, " ++ decimal warnings ++ utf8 " warnings)\n"

end ColonGap.Report
