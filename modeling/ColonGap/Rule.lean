import ColonGap.Failure
import ColonGap.OptionValue

/-!
# Rules

A rule is a named check of a source file that takes an option. Some rules explain themselves,
some mend what they find, and some can tell whether an option means anything to them.
-/

namespace ColonGap

/-- A rule. -/
structure Rule where
  /-- The name by which a configuration refers to the rule. -/
  name : Bytes
  /-- What it checks, in one line. -/
  description : Bytes
  /-- The option values it knows, if it has such a list. -/
  options : Option (List Bytes)
  /-- Why it exists, if it says so. -/
  rationale : Option Bytes
  /-- Whether its failures carry fixes. -/
  fixable : Bool
  /-- What is wrong with an option, if anything is. -/
  optionError : OptionValue → Option Bytes
  /-- The failures in a file. -/
  check : SourceFile → OptionValue → List Failure

end ColonGap
