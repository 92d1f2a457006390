import ColonGap.Config.Decode
import ColonGap.Config.Validate

/-!
# Parsing and validating configurations
-/

namespace ColonGap

namespace Config

/-- Why a configuration cannot be used. -/
inductive Invalid where
  /-- It violates constraints. -/
  | violations (items : List Violation)
  /-- An override of a rule is not of the form `name=option`. -/
  | malformedOverride (text : Bytes)
  /-- A rule is not registered. -/
  | unknownRule (name : Bytes)
  /-- A rule does not know its option; the rule says what is wrong. -/
  | unknownOption (message : Bytes)
deriving DecidableEq, Repr

/-- The wording of what is wrong with a configuration. -/
def Invalid.message : Invalid → Bytes
  | violations items => utf8 "invalid config: " ++ violationMessage items
  | malformedOverride text =>
    utf8 "invalid config: rule override " ++ quoted text ++ utf8 ": want name=option"
  | unknownRule name => utf8 "invalid config: unknown rule " ++ quoted name
  | unknownOption message => utf8 "invalid config: " ++ message

/-- Why a text is no configuration. -/
inductive ParseError where
  | document (fault : Yaml.Fault)
  | invalid (reason : Invalid)

/-- The wording of a parse error. -/
def ParseError.message : ParseError → Bytes
  | document fault => utf8 "parsing: " ++ fault.message
  | invalid reason => reason.message

/-- Accept a configuration that violates no constraint. -/
def validate (c : Config) : Except Invalid Config :=
  match c.violations with
  | [] => .ok c
  | items => .error (.violations items)

/-- Decode and validate the text of a configuration file. -/
def parse (text : Bytes) : Except ParseError Config :=
  match ofText text with
  | .error fault => .error (.document fault)
  | .ok c =>
    match c.validate with
    | .error reason => .error (.invalid reason)
    | .ok c => .ok c

end Config

end ColonGap
