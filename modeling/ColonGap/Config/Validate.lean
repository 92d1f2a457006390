import ColonGap.Config.Basic
import ColonGap.Ordering
import ColonGap.Report

/-!
# Valid configurations

A configuration is valid if it violates no constraint. All violations are reported at once, in
the order of their wordings.
-/

namespace ColonGap

namespace Config

/-- A violated constraint. -/
inductive Violation where
  /-- The format is not one of those that exist. -/
  | unknownFormat (value : Bytes)
  /-- The number of files to lint at once is below zero. -/
  | negativeConcurrency (value : Int)
  /-- There are no extensions. -/
  | noExtensions
  /-- An extension does not start with a point. -/
  | extensionWithoutPoint (index : Nat) (value : Bytes)
  /-- A pattern is empty. -/
  | emptyPattern (index : Nat)
  /-- A rule has an empty name. -/
  | emptyRuleName
  /-- A severity is not one of those that exist. -/
  | unknownSeverity (rule : Bytes) (value : Bytes)
deriving DecidableEq, Repr

namespace Violation

/-- The field of a violation. -/
def field : Violation → Bytes
  | unknownFormat _ => utf8 "Config.Lint.Format"
  | negativeConcurrency _ => utf8 "Config.Lint.Concurrency"
  | noExtensions => utf8 "Config.Lint.Extensions"
  | extensionWithoutPoint index _ =>
    utf8 "Config.Lint.Extensions[" ++ decimal index ++ utf8 "]"
  | emptyPattern index => utf8 "Config.Lint.Exclude[" ++ decimal index ++ utf8 "]"
  | emptyRuleName => utf8 "Config.Lint.Rules[]"
  | unknownSeverity rule _ => utf8 "Config.Lint.Rules[" ++ rule ++ utf8 "].Severity"

/-- The name of the constraint. -/
def constraint : Violation → String
  | unknownFormat _ => "oneof"
  | negativeConcurrency _ => "gte"
  | noExtensions => "min"
  | extensionWithoutPoint _ _ => "startswith"
  | emptyPattern _ => "required"
  | emptyRuleName => "required"
  | unknownSeverity _ _ => "oneof"

/-- The value that violates the constraint. -/
def value : Violation → Bytes
  | unknownFormat v => v
  | negativeConcurrency n => signedDecimal n
  | noExtensions => utf8 "[]"
  | extensionWithoutPoint _ v => v
  | emptyPattern _ => []
  | emptyRuleName => []
  | unknownSeverity _ v => v

/-- The wording of a violation. -/
def message (v : Violation) : Bytes :=
  v.field ++ utf8 ": failed " ++ quoted (utf8 v.constraint) ++ utf8 " (value " ++ v.value
    ++ utf8 ")"

end Violation

/-- Whether a format exists. -/
def isFormat (s : Bytes) : Bool :=
  Report.Format.all.any fun f ↦ utf8 f.name == s

/-- Whether a severity exists; none is given by the empty one. -/
def isSeverity (s : Severity) : Bool :=
  s.isEmpty || s == Severity.error || s == Severity.warning || s == Severity.off

/-- The violations of the extensions. -/
def extensionViolations : List Bytes → List Violation
  | [] => [.noExtensions]
  | extensions =>
    extensions.zipIdx.filterMap fun (e, i) ↦
      if e.head? == some 46 then none else some (.extensionWithoutPoint i e)

/-- The violations of the patterns. -/
def patternViolations (patterns : List Bytes) : List Violation :=
  patterns.zipIdx.filterMap fun (p, i) ↦ if p.isEmpty then some (.emptyPattern i) else none

/-- The violations of some rules. -/
def ruleViolations (rules : Entries RuleConfig) : List Violation :=
  rules.flatMap fun (name, rule) ↦
    (if name.isEmpty then [.emptyRuleName] else [])
      ++ (if isSeverity rule.severity then [] else [.unknownSeverity name rule.severity])

/-- All violations of a configuration, with the rules in the given order. -/
def violationsAlong (c : Config) (rules : Entries RuleConfig) : List Violation :=
  (if isFormat c.format then [] else [.unknownFormat c.format])
    ++ (if c.concurrency < 0 then [.negativeConcurrency c.concurrency] else [])
    ++ extensionViolations (c.extensions.getD [])
    ++ patternViolations (c.exclude.getD [])
    ++ ruleViolations rules

/-- All violations of a configuration. -/
def violations (c : Config) : List Violation :=
  c.violationsAlong c.ruleList.entries

/-- The wording of violations. -/
def violationMessage (items : List Violation) : Bytes :=
  Bytes.join (utf8 "; ") (sortBy Bytes.le (items.map Violation.message))

end Config

end ColonGap
