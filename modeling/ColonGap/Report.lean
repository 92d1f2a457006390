import ColonGap.Report.Json
import ColonGap.Report.Sarif
import ColonGap.Report.Text

/-!
# Reports

The three formats of a report, by their names. No name means the text report.
-/

namespace ColonGap

namespace Report

/-- The format of a report. -/
inductive Format where
  | text | json | sarif
deriving DecidableEq, Repr

namespace Format

/-- The name of a format. -/
def name : Format → String
  | text => "text"
  | json => "json"
  | sarif => "sarif"

/-- All formats. -/
def all : List Format :=
  [text, json, sarif]

/-- The format of the given name. -/
def ofName? (s : Bytes) : Option Format :=
  if s.isEmpty then some text else all.find? fun f ↦ utf8 f.name == s

/-- What is said about a name that no format has. -/
def unknownMessage (s : Bytes) : Bytes :=
  utf8 "unknown format " ++ quoted s ++ utf8 " (want text, json or sarif)"

/-- The report of some failures. -/
def render (format : Format) (rules : List Rule) (failures : List Failure) : Bytes :=
  match format with
  | text => Report.text failures
  | json => Report.json failures
  | sarif => Report.sarif rules failures

end Format

end Report

end ColonGap
