import ColonGap.Rule
import ColonGap.Text.Table

/-!
# Listings of rules

A listing is either a table with one line for each rule or a longer description of each rule
that ends with an example of its configuration.
-/

namespace ColonGap

namespace Listing

/-- Whether a rule mends what it finds, in a word. -/
def fixableWord (r : Rule) : Bytes :=
  utf8 (if r.fixable then "yes" else "no")

/-- The options of a rule with a separator between them. -/
def optionNames (separator : String) (r : Rule) : Bytes :=
  Bytes.join (utf8 separator) (r.options.getD [])

/-- The line of a rule in the table. -/
def row (r : Rule) : Bytes :=
  r.name ++ utf8 "\t" ++ optionNames "|" r ++ utf8 "\t" ++ fixableWord r ++ utf8 "\t"
    ++ r.description ++ utf8 "\n"

/-- The table of rules. -/
def table (rules : List Rule) : Bytes :=
  Table.render (utf8 "RULE\tOPTIONS\tFIXABLE\tDESCRIPTION\n" ++ rules.flatMap row)

/-- An example of a configuration of the rule, with its first option. -/
def exampleOf (r : Rule) : Bytes :=
  match r.options with
  | some (option :: _) =>
    utf8 "\n  Example:\n    lint:\n      rules:\n        " ++ r.name
      ++ utf8 ":\n          option: " ++ option ++ utf8 "\n"
  | _ => []

/-- The description of a rule. -/
def description (r : Rule) : Bytes :=
  let rationale := match r.rationale with
    | some s => utf8 "\n  Rationale: " ++ s ++ utf8 "\n"
    | none => []
  r.name ++ utf8 "\n  " ++ r.description ++ utf8 "\n" ++ rationale ++ utf8 "\n  Options: "
    ++ optionNames ", " r ++ utf8 "\n  Fixable: " ++ fixableWord r ++ utf8 "\n" ++ exampleOf r
    ++ utf8 "\n"

end Listing

end ColonGap
