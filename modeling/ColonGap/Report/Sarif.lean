import ColonGap.Report.Json
import ColonGap.Rule

/-!
# The SARIF report

A log with one run. The run describes the rules, each once, and then lists the results, each of
which refers to the description of its rule. A failure of a rule that is not described adds a
bare description.
-/

namespace ColonGap.Report

/-- The description of a rule in the log. -/
structure Descriptor where
  id : Bytes
  /-- Nothing is known about a rule that only a failure names. -/
  description : Option Bytes
  rationale : Option Bytes
deriving DecidableEq

/-- Describe a rule; one that is described already gets the new description. -/
def describe (r : Rule) : List Descriptor → List Descriptor
  | [] => [⟨r.name, some r.description, r.rationale⟩]
  | d :: descriptors =>
    if d.id == r.name then ⟨d.id, some r.description, r.rationale.or d.rationale⟩ :: descriptors
    else d :: describe r descriptors

/-- Add a bare description, unless the rule is described. -/
def mention (id : Bytes) (descriptors : List Descriptor) : List Descriptor :=
  if descriptors.any (·.id == id) then descriptors else descriptors ++ [⟨id, none, none⟩]

/-- The descriptions of the given rules and of the rules that the failures name. -/
def descriptors (rules : List Rule) (failures : List Failure) : List Descriptor :=
  failures.foldl (fun ds f ↦ mention f.rule ds) (rules.foldl (fun ds r ↦ describe r ds) [])

/-- A message with a text. -/
def messageDocument (s : Bytes) : Document :=
  .record [("text", .text s)]

/-- The document of a description. -/
def descriptorDocument (d : Descriptor) : Document :=
  let full := match d.rationale with
    | some s => [("fullDescription", messageDocument s)]
    | none => []
  match d.description with
  | none => .record [("id", .text d.id), ("shortDescription", .null)]
  | some s =>
    .record ([("id", .text d.id), ("shortDescription", messageDocument s)] ++ full
      ++ [("defaultConfiguration", .record [("level", .text Severity.error)])])

/-- The level of a severity. -/
def level (s : Severity) : Bytes :=
  if s == Severity.warning then Severity.warning else Severity.error

/-- The place of a file. -/
def artifact (file : Bytes) : Document :=
  .record [("uri", .text file)]

/-- A range by its offset and its length. -/
def byteRange (start stop : Int) : List (String × Document) :=
  [("byteOffset", .number start), ("byteLength", .number (length64 start stop))]

/-- The fix of a failure. -/
def fixDocument (f : Failure) (r : Replacement) : Document :=
  .record
    [("description", messageDocument f.message),
      ("artifactChanges", .list
        [.record
          [("artifactLocation", artifact f.file),
            ("replacements", .list
              [.record
                [("deletedRegion", .record (byteRange r.start r.stop)),
                  ("insertedContent", messageDocument r.text)]])]])]

/-- The result of a failure. -/
def resultDocument (ds : List Descriptor) (f : Failure) : Document :=
  let region := Document.record
    ([("startLine", .number f.position.line), ("startColumn", .number f.position.column),
      ("endLine", .number f.endPosition.line), ("endColumn", .number f.endPosition.column)]
      ++ byteRange f.start f.stop)
  let fixes := match f.fix with
    | some r => [("fixes", Document.list [fixDocument f r])]
    | none => []
  .record
    ([("ruleId", .text f.rule), ("ruleIndex", .number (ds.findIdx (·.id == f.rule))),
      ("level", .text (level f.severity)), ("message", messageDocument f.message),
      ("locations", .list
        [.record
          [("physicalLocation", .record
            [("artifactLocation", artifact f.file), ("region", region)])]])] ++ fixes)

/-- The document of the SARIF report. -/
def sarifDocument (rules : List Rule) (failures : List Failure) : Document :=
  let ds := descriptors rules failures
  .record
    [("version", .text (utf8 "2.1.0")),
      ("$schema", .text (utf8
        "https://raw.githubusercontent.com/oasis-tcs/sarif-spec/main/sarif-2.1/schema/sarif-schema-2.1.0.json")),
      ("runs", .list
        [.record
          [("tool", .record
            [("driver", .record
              [("informationUri", .text (utf8 "https://github.com/donaldgifford/colonlint")),
                ("name", .text (utf8 "colonlint")),
                ("rules", .list (ds.map descriptorDocument))])]),
            ("results", .list (failures.map (resultDocument ds))),
            ("columnKind", .text (utf8 "unicodeCodePoints"))]])]

/-- The SARIF report. -/
def sarif (rules : List Rule) (failures : List Failure) : Bytes :=
  (sarifDocument rules failures).render 0

end ColonGap.Report
