import ColonGap.Config.Parse
import ColonGap.Lint
import ColonGap.Log
import ColonGap.Registry

/-!
# Resolving configured rules

The settings of a run are the configured rules that are not off, in the order of their names,
each along with the registered rule of its name. An option that a rule does not know is an error
if options are strict, and is otherwise only logged.
-/

namespace ColonGap

namespace Config

/-- The severity of an enabled rule. -/
def severityOf (rule : RuleConfig) : Severity :=
  if rule.severity == Severity.warning then Severity.warning else Severity.error

/-- Resolve one configured rule. A rule that is off gives no setting. -/
def setting (registry : Registry) (strict : Bool) (name : Bytes) (config : RuleConfig) :
    List Log.Entry × Except Invalid (Option Setting) :=
  if !config.isEnabled then ([Log.debug "rule off" [("rule", .text name)]], .ok none)
  else
    match registry.lookup? name with
    | none => ([], .error (.unknownRule name))
    | some rule =>
      let enabled := Log.debug "rule enabled"
        [("rule", .text name), ("severity", .text (severityOf config)),
          ("option", .option config.option)]
      let result := .ok (some ⟨rule, severityOf config, config.option⟩)
      match rule.optionError config.option with
      | none => ([enabled], result)
      | some message =>
        if strict then ([], .error (.unknownOption message))
        else
          ([Log.warn "rule disabled by unrecognized option"
              [("rule", .text name), ("option", .option config.option)], enabled], result)

/-- Resolve configured rules in order, up to the first one that cannot be resolved. -/
def settingsOf (registry : Registry) (strict : Bool) :
    Entries RuleConfig → List Log.Entry × Except Invalid (List Setting)
  | [] => ([], .ok [])
  | (name, config) :: rules =>
    match setting registry strict name config with
    | (log, .error reason) => (log, .error reason)
    | (log, .ok resolved) =>
      let (more, rest) := settingsOf registry strict rules
      (log ++ more, rest.map (resolved.toList ++ ·))

/-- The settings of a configuration, and what is logged about them. -/
def settings (registry : Registry) (c : Config) :
    List Log.Entry × Except Invalid (List Setting) :=
  settingsOf registry c.strictOptions c.ruleList.entries

end Config

end ColonGap
