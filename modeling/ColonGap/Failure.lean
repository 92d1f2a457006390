import ColonGap.SourceFile

/-!
# Findings

A failure is one finding of a rule: where it is, what is wrong and how to mend it. The rule
fills in the range, the message and the fix; the rest is stamped on when a file is linted.
-/

namespace ColonGap

/-- The importance of a failure, by its name. -/
abbrev Severity := Bytes

namespace Severity

/-- A failure that makes a run fail. -/
def error : Severity := utf8 "error"

/-- A failure that is only reported. -/
def warning : Severity := utf8 "warning"

end Severity

/-- The text that replaces a range of the source. -/
structure Replacement where
  start : Int
  stop : Int
  text : Bytes
deriving DecidableEq, Repr

/-- One finding. -/
structure Failure where
  rule : Bytes
  severity : Severity
  file : Bytes
  start : Int
  stop : Int
  position : Position
  endPosition : Position
  message : Bytes
  fix : Option Replacement
deriving DecidableEq, Repr

namespace Failure

/-- A failure of a rule, before it is stamped. -/
def ofRange (start stop : Int) (message : Bytes) (fix : Option Replacement) : Failure :=
  { rule := [], severity := [], file := [], start := start, stop := stop, position := ⟨0, 0⟩
    endPosition := ⟨0, 0⟩, message := message, fix := fix }

/-- A failure on one line: path, line, column, message and rule. -/
def summary (f : Failure) : Bytes :=
  f.file ++ utf8 ":" ++ signedDecimal f.position.line ++ utf8 ":"
    ++ signedDecimal f.position.column ++ utf8 ": " ++ f.message ++ utf8 " (" ++ f.rule
    ++ utf8 ")"

/-- The numbers of errors and of warnings. -/
def count (failures : List Failure) : Nat × Nat :=
  ((failures.filter (·.severity == Severity.error)).length,
    (failures.filter (·.severity == Severity.warning)).length)

/-- The failures that are errors. -/
def errorsOnly (failures : List Failure) : List Failure :=
  failures.filter (·.severity == Severity.error)

end Failure

end ColonGap
