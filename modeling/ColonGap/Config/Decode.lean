import ColonGap.Config.Basic
import ColonGap.Yaml.Decode.Mapping

/-!
# Reading configurations

A configuration file is laid over the standard configuration: what it does not set keeps its
standard value. Lists replace the standard lists. If it has a set of rules at all, be it null,
the standard rules are dropped first.
-/

namespace ColonGap

namespace Config

open Yaml

/-! ### Whether there are rules -/

/-- The type of the part of a document that may hold rules. -/
def ruleHolderType : Bytes :=
  utf8 "struct \x7b Rules yaml.Node \"yaml:\\\"rules\\\"\" \x7d"

/-- The type of a document that may hold rules. -/
def documentType : Bytes :=
  utf8 "struct \x7b Lint " ++ ruleHolderType ++ utf8 " \"yaml:\\\"lint\\\"\" \x7d"

/-- Whether a mapping has rules. -/
def rulesTarget : Decode.Target Bool where
  key := Decode.textKey
  fields := some (ruleHolderType, [utf8 "rules"])
  put := fun _ _ _ ↦ do
    Decode.countVisit
    return true

/-- Whether a document has rules. -/
def hasRulesTarget (fuel : Nat) : Decode.Target Bool where
  key := Decode.textKey
  fields := some (documentType, [utf8 "lint"])
  put := fun _ node found ↦ do
    return (← Decode.fields fuel rulesTarget ruleHolderType node found).1

/-! ### The fields of a configuration -/

/-- The type of the configuration of a rule. -/
def ruleType : Bytes := utf8 "config.RuleConfig"

/-- The fields of the configuration of a rule. -/
def ruleTarget (fuel : Nat) : Decode.Target RuleConfig where
  key := Decode.textKey
  fields := some (ruleType, [utf8 "severity", utf8 "option"])
  put := fun key node rule ↦ do
    if key.render == utf8 "severity" then
      return { rule with severity := (← Decode.text node).getD rule.severity }
    else return { rule with option := (← Decode.any fuel node).getD rule.option }

/-- The set of rules: a rule that is null is one about which nothing is said. `missing` says that
the set was missing at the start, so that a null may take the place of a rule. -/
def ruleSetTarget (fuel : Nat) (missing : Bool) : Decode.Target (KeyedList RuleConfig) where
  key := Decode.textKey
  fields := none
  put := fun key node rules ↦ do
    let name := key.render
    let (rule, found) ← Decode.fields fuel (ruleTarget fuel) ruleType node .unset
    let isNull := Document.tagOf (← get).anchors node == nullTag
    if found || (isNull && (missing || (rules.get? name).isNone)) then return rules.put name rule
    else return rules

/-- The type of a set of rules. -/
def ruleSetType : Bytes := utf8 "map[string]config.RuleConfig"

/-- Decode a set of rules; null is the missing set. -/
def ruleSet (fuel : Nat) (rules : Option (KeyedList RuleConfig)) :
    Node → Decode (Option (KeyedList RuleConfig)) :=
  Decode.visit fun node ↦ do
    match node with
    | .mapping _ _ entries =>
      if ← Decode.keysDiffer entries then
        let target := ruleSetTarget fuel rules.isNone
        return some (← Decode.mappingEntries (Decode.any fuel) (ruleSetTarget fuel false) fuel
          target entries (rules.getD .empty))
      else return rules
    | .scalar _ tag literal text =>
      match (← Decode.scalarValue tag literal text).2 with
      | .null => return none
      | _ =>
        Decode.misfit ruleSetType node
        return rules
    | node =>
      Decode.misfit ruleSetType node
      return rules

/-- The fields of a configuration. -/
def configTarget (fuel : Nat) : Decode.Target Config where
  key := Decode.textKey
  fields := some (utf8 "config.LintConfig",
    ["format", "strict_options", "concurrency", "extensions", "exclude", "rules"].map utf8)
  put := fun key node c ↦ do
    let name := key.render
    if name == utf8 "format" then
      return { c with format := (← Decode.text node).getD c.format }
    else if name == utf8 "strict_options" then
      return { c with strictOptions := (← Decode.bool node).getD c.strictOptions }
    else if name == utf8 "concurrency" then
      return { c with concurrency := (← Decode.int node).getD c.concurrency }
    else if name == utf8 "extensions" then
      return { c with extensions := (← Decode.texts node).getD c.extensions }
    else if name == utf8 "exclude" then
      return { c with exclude := (← Decode.texts node).getD c.exclude }
    else return { c with rules := ← ruleSet fuel c.rules node }

/-- The document around a configuration. -/
def documentTarget (fuel : Nat) : Decode.Target Config where
  key := Decode.textKey
  fields := some (utf8 "config.Config", [utf8 "lint"])
  put := fun _ node c ↦ do
    return (← Decode.fields fuel (configTarget fuel) (utf8 "config.LintConfig") node c).1

/-- Decode a document over the standard configuration. -/
def ofDocument (fuel : Nat) (document : Document) : Except Fault Config := do
  let hasRules ← decodeDocument document (fun node found ↦ do
    return (← Decode.fields fuel (hasRulesTarget fuel) documentType node found).1) false
  let start := if hasRules then { standard with rules := none } else standard
  decodeDocument document (fun node c ↦ do
    return (← Decode.fields fuel (documentTarget fuel) (utf8 "config.Config") node c).1) start

/-- A depth that the nodes of a text do not reach: on the way down a reference is followed at most
once, and between references nodes stand in one another. -/
def nestingBound (text : Bytes) : Nat :=
  (text.length + 8) * (text.length + 8)

/-- Decode the text of a configuration file. -/
def ofText (text : Bytes) : Except Fault Config := do
  let document ← Yaml.parse text
  ofDocument (nestingBound text) document

end Config

end ColonGap
