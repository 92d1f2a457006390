import ColonGap.Config.Parse
import ColonGap.Text.Trim

/-!
# Overriding rule options

An override is a text `name=option` that sets the option of a rule, with the spaces around name
and option left out. It also turns the rule on: a rule that is off or not configured becomes an
error.
-/

namespace ColonGap

namespace Config

/-- An override, taken apart. -/
structure Override where
  rule : Bytes
  option : Bytes
deriving DecidableEq, Repr

/-- Take an override apart at its first `=`. There has to be a name before it. -/
def Override.ofText? (text : Bytes) : Option Override :=
  match text.cut? 61 with
  | none => none
  | some (name, option) => if name.trim.isEmpty then none else some ⟨name.trim, option.trim⟩

/-- A rule with its option set and turned on. -/
def overridden (rule : RuleConfig) (option : Bytes) : RuleConfig :=
  { severity :=
      if rule.severity.isEmpty || rule.severity == Severity.off then Severity.error
      else rule.severity
    option := .text option }

/-- Apply an override that has been taken apart. -/
def apply (c : Config) (o : Override) : Config :=
  let rule := (c.ruleList.get? o.rule).getD .unset
  { c with rules := some (c.ruleList.put o.rule (overridden rule o.option)) }

/-- Apply overrides in order. -/
def override (c : Config) : List Bytes → Except Invalid Config
  | [] => .ok c
  | text :: texts =>
    match Override.ofText? text with
    | none => .error (.malformedOverride text)
    | some o => override (c.apply o) texts

end Config

end ColonGap
