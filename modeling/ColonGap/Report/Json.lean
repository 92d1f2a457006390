import ColonGap.Failure
import ColonGap.Report.Document

/-!
# The JSON report

A list of results and a summary. A range is given by its offset and its length, which is a
64-bit number and wraps around.
-/

namespace ColonGap.Report

/-- The length of a range as a signed 64-bit number. -/
def length64 (start stop : Int) : Int :=
  (stop - start).bmod 0x10000000000000000

/-- The result of a failure. -/
def jsonResult (f : Failure) : Document :=
  let fix := match f.fix with
    | some r =>
      [("fix", Document.record
        [("start", .number r.start), ("end", .number r.stop), ("text", .text r.text)])]
    | none => []
  .record
    ([("file", .text f.file), ("rule", .text f.rule), ("severity", .text f.severity),
      ("message", .text f.message),
      ("location", .record
        [("line", .number f.position.line), ("column", .number f.position.column),
          ("endLine", .number f.endPosition.line), ("endColumn", .number f.endPosition.column),
          ("offset", .number f.start), ("length", .number (length64 f.start f.stop))])] ++ fix)

/-- The document of the JSON report. -/
def jsonDocument (failures : List Failure) : Document :=
  let (errors, warnings) := Failure.count failures
  .record
    [("results", .list (failures.map jsonResult)),
      ("summary", .record
        [("total", .number failures.length), ("errors", .number errors),
          ("warnings", .number warnings),
          ("fixable", .number (failures.filter (·.fix.isSome)).length)])]

/-- The JSON report. -/
def json (failures : List Failure) : Bytes :=
  (jsonDocument failures).render 0 ++ utf8 "\n"

end ColonGap.Report
