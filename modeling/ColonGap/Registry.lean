import ColonGap.Ordering
import ColonGap.Rule.BeforeColon

/-!
# The registry of rules

Rules are registered under their names; a later rule of the same name takes the place of the
earlier one.
-/

namespace ColonGap

/-- The registered rules, at most one for each name. -/
structure Registry where
  rules : List Rule

namespace Registry

/-- The registry of the built-in rule. -/
def builtin : Registry :=
  ⟨[Rule.BeforeColon.rule]⟩

/-- Register a rule. -/
def register (r : Registry) (rule : Rule) : Registry :=
  ⟨rule :: r.rules.filter (·.name != rule.name)⟩

/-- The rule of the given name. -/
def lookup? (r : Registry) (name : Bytes) : Option Rule :=
  r.rules.find? (·.name == name)

/-- All rules, in the order of their names. -/
def all (r : Registry) : List Rule :=
  sortBy (fun a b ↦ a.name.le b.name) r.rules

end Registry

end ColonGap
