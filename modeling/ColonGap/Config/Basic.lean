import ColonGap.Failure
import ColonGap.KeyedList
import ColonGap.OptionValue
import ColonGap.Rule.BeforeColon

/-!
# Configurations

A configuration says how to report, which files to take from directories and which rules to run.
A list or a set of rules that a configuration sets to null is missing, which is not the same as
an empty one.
-/

namespace ColonGap

namespace Severity

/-- The severity of a rule that does not run. -/
def off : Severity := utf8 "off"

end Severity

/-- How a rule is configured. -/
structure RuleConfig where
  severity : Severity
  option : OptionValue
deriving Inhabited

namespace RuleConfig

/-- The configuration of a rule about which nothing is said. -/
def unset : RuleConfig := ⟨[], .null⟩

/-- Whether the rule runs. -/
def isEnabled (r : RuleConfig) : Bool :=
  r.severity != Severity.off

end RuleConfig

/-- A configuration. -/
structure Config where
  format : Bytes
  /-- Whether an option that a rule does not know is an error. -/
  strictOptions : Bool
  /-- How many files are linted at once; zero leaves it open. -/
  concurrency : Int
  /-- The endings of the files to take from directories. -/
  extensions : Option (List Bytes)
  /-- The patterns of the files to leave out. -/
  exclude : Option (List Bytes)
  rules : Option (KeyedList RuleConfig)
deriving Inhabited

namespace Config

/-- The configuration that sets nothing. -/
def blank : Config := ⟨[], false, 0, none, none, none⟩

/-- The configuration that holds where nothing else is said. -/
def standard : Config where
  format := utf8 "text"
  strictOptions := false
  concurrency := 0
  extensions := some [utf8 ".js", utf8 ".cjs", utf8 ".mjs"]
  exclude := some [utf8 "**/node_modules"]
  rules := some (.ofList [(Rule.BeforeColon.name, ⟨Severity.error, .text (utf8 "nospace")⟩)])

/-- The configured rules in the order of their names. -/
def ruleList (c : Config) : KeyedList RuleConfig :=
  c.rules.getD .empty

/-- The names of the configured rules in order. -/
def ruleNames (c : Config) : List Bytes :=
  c.ruleList.keys

/-- How many files are linted at once where there are so many processors. -/
def workers (c : Config) (processors : Nat) : Nat :=
  if c.concurrency ≤ 0 then processors else c.concurrency.toNat

end Config

end ColonGap
