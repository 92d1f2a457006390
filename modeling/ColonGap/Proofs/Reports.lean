import ColonGap.Proofs.Documents
import ColonGap.Report.Json

/-!
# The JSON report keeps the failures

`readReport?` takes a JSON report apart: it reads the document, looks the fields of each result up
by their names and puts the failures together again. What comes back is what was reported
(`readReport?_json`), and that is `Failure.reported` of each failure:

* a byte that is not UTF-8 has become the replacement character;
* the end of a range has become a signed 64-bit number, since the report has its length;
* everything else is as it was, and a fix is missing exactly if it was.

So the report loses nothing of failures that are written in UTF-8 and end at a 64-bit number
(`json_lossless`). The reader does not look at the summary, which the results determine.
-/

namespace ColonGap

namespace Failure

/-- A failure as a report tells it. -/
def reported (f : Failure) : Failure where
  rule := Utf8.repaired f.rule
  severity := Utf8.repaired f.severity
  file := Utf8.repaired f.file
  start := f.start
  stop := f.stop.bmod (2 ^ 64)
  position := f.position
  endPosition := f.endPosition
  message := Utf8.repaired f.message
  fix := f.fix.map fun r ↦ { r with text := Utf8.repaired r.text }

/-- A failure whose texts are UTF-8 and whose end is a signed 64-bit number. The other numbers may
be of any size. -/
structure Reportable (f : Failure) : Prop where
  rule : Utf8.isValid f.rule = true
  severity : Utf8.isValid f.severity = true
  file : Utf8.isValid f.file = true
  message : Utf8.isValid f.message = true
  fix : ∀ r ∈ f.fix, Utf8.isValid r.text = true
  stop : -2 ^ 63 ≤ f.stop ∧ f.stop < 2 ^ 63

/-- Nothing of a failure that can be reported is lost. -/
theorem Reportable.reported_eq {f : Failure} (h : f.Reportable) : f.reported = f := by
  have hstop : f.stop.bmod (2 ^ 64) = f.stop :=
    Int.bmod_eq_of_le (by have := h.stop.1; omega) (by have := h.stop.2; omega)
  have hfix : (f.fix.map fun r ↦ { r with text := Utf8.repaired r.text }) = f.fix := by
    cases hf : f.fix with
    | none => rfl
    | some r => simp [Utf8.repaired_of_isValid (h.fix r hf)]
  simp only [reported, Utf8.repaired_of_isValid h.rule, Utf8.repaired_of_isValid h.severity,
    Utf8.repaired_of_isValid h.file, Utf8.repaired_of_isValid h.message, hstop, hfix]

end Failure

namespace Report

/-! ### The parts of a value -/

namespace Value

/-- The field of a record that has a name. -/
def field? (name : String) : Value → Option Value
  | record fields => fields.lookup (utf8 name)
  | _ => none

/-- The number in a field. -/
def numberAt? (name : String) (v : Value) : Option Int :=
  match v.field? name with
  | some (number n) => some n
  | _ => none

/-- The text in a field. -/
def textAt? (name : String) (v : Value) : Option Bytes :=
  match v.field? name with
  | some (text s) => some s
  | _ => none

/-- The list in a field. -/
def listAt? (name : String) (v : Value) : Option (List Value) :=
  match v.field? name with
  | some (list items) => some items
  | _ => none

end Value

/-! ### Failures -/

/-- The replacement that a record describes. -/
def replacement? (v : Value) : Option Replacement := do
  let start ← v.numberAt? "start"
  let stop ← v.numberAt? "end"
  let text ← v.textAt? "text"
  some { start, stop, text }

/-- The fix of a result, which may be missing. -/
def fix? (v : Value) : Option (Option Replacement) :=
  match v.field? "fix" with
  | none => some none
  | some fix => (replacement? fix).map some

/-- The failure that a result describes. -/
def failure? (v : Value) : Option Failure := do
  let file ← v.textAt? "file"
  let rule ← v.textAt? "rule"
  let severity ← v.textAt? "severity"
  let message ← v.textAt? "message"
  let location ← v.field? "location"
  let line ← location.numberAt? "line"
  let column ← location.numberAt? "column"
  let endLine ← location.numberAt? "endLine"
  let endColumn ← location.numberAt? "endColumn"
  let offset ← location.numberAt? "offset"
  let length ← location.numberAt? "length"
  let fix ← fix? v
  some
    { rule, severity, file, message, fix, start := offset
      stop := (offset + length).bmod (2 ^ 64)
      position := ⟨line, column⟩, endPosition := ⟨endLine, endColumn⟩ }

/-- The failures of a JSON report. -/
def readReport? (s : Bytes) : Option (List Failure) := do
  let (report, rest) ← read? s.length (skip s)
  guard (skip rest = [])
  let results ← report.listAt? "results"
  results.mapM failure?

theorem length64_eq (start stop : Int) : length64 start stop = (stop - start).bmod (2 ^ 64) :=
  rfl

/-- A range ends where its length says, up to a multiple of `2 ^ 64`. -/
theorem add_length64 (start stop : Int) :
    (start + length64 start stop).bmod (2 ^ 64) = stop.bmod (2 ^ 64) := by
  have hsum : start + (stop - start) = stop := by omega
  rw [length64_eq, Int.add_bmod_bmod, hsum]

/-- The result of a failure is read back as what is reported of it. -/
theorem failure?_jsonResult (f : Failure) : failure? (jsonResult f).value = some f.reported := by
  rw [Failure.reported, ← add_length64 f.start f.stop]
  cases hfix : f.fix with
  | none =>
    rw [jsonResult, hfix]
    rfl
  | some r =>
    rw [jsonResult, hfix]
    rfl

/-- The results of failures are read back as what is reported of them, in order. -/
theorem mapM_failure?_jsonResult (failures : List Failure) :
    (valuesOf (failures.map jsonResult)).mapM failure? = some (failures.map Failure.reported) := by
  induction failures with
  | nil => rfl
  | cons f failures ih =>
    rw [List.map_cons, valuesOf, List.mapM_cons, failure?_jsonResult, ih]
    rfl

/-- A JSON report is a document and the end of a line. -/
theorem read?_json (failures : List Failure) :
    read? (json failures).length (skip (json failures))
      = some ((jsonDocument failures).value, utf8 "\n") := by
  have hlength : ((jsonDocument failures).render 0).length ≤ (json failures).length := by
    rw [json, List.length_append]
    exact Nat.le_add_right _ _
  have hend : ∀ b ∈ (utf8 "\n").head?, isDecimalDigit b = false := by
    rintro b ⟨⟩
    rfl
  rw [json, skip_render]
  exact read?_render _ hlength hend

/-- **What a report tells.** A JSON report is read back as the failures that it tells of. -/
theorem readReport?_json (failures : List Failure) :
    readReport? (json failures) = some (failures.map Failure.reported) := by
  have hresults : (jsonDocument failures).value.listAt? "results"
      = some (valuesOf (failures.map jsonResult)) := rfl
  have hrest : skip (utf8 "\n") = [] := rfl
  rw [readReport?, read?_json]
  simp only [Option.bind_eq_bind, Option.bind_some, hrest, hresults, guard_true, Option.pure_def,
    mapM_failure?_jsonResult]

/-- **Nothing is lost.** Failures in UTF-8 can be read back from their report, so that no other such
failures have the same report. -/
theorem json_lossless {failures : List Failure} (h : ∀ f ∈ failures, f.Reportable) :
    readReport? (json failures) = some failures ∧
      ∀ others : List Failure, (∀ f ∈ others, f.Reportable) →
        json others = json failures → others = failures := by
  have hread : ∀ {fs : List Failure}, (∀ f ∈ fs, f.Reportable) →
      readReport? (json fs) = some fs := by
    intro fs hfs
    rw [readReport?_json, List.map_congr_left fun f hf ↦ (hfs f hf).reported_eq, List.map_id']
  refine ⟨hread h, fun others hothers hjson ↦ ?_⟩
  have hsome : some others = some failures := by rw [← hread hothers, hjson, hread h]
  exact Option.some.inj hsome

/-- A failure whose texts imitate the report and whose length wraps around. -/
def imitation : Failure where
  rule := utf8 "colon\", \"fix\": null, \"rule\": \"\\"
  severity := Severity.warning
  file := utf8 "a.js\"\n    \x7d,\n    \x7b\n      \"file\": \"\u2028<b>&\t"
  start := 2 ^ 63 - 1
  stop := -2 ^ 63
  position := ⟨-1, 0⟩
  endPosition := ⟨12, 345⟩
  message := utf8 "\\\"\\u0022\u0007é😀\ufffd"
  fix := some ⟨0, 0, []⟩

/-- A file name and a message that imitate the syntax of a report come back as they were, and so
does a missing fix. -/
theorem json_lossless_imitation :
    readReport? (json [imitation, { imitation with fix := none }])
        = some [imitation, { imitation with fix := none }] ∧
      json [{ imitation with fix := none }] ≠ json [imitation] := by
  have hrule : Utf8.isValid imitation.rule = true := by decide
  have hfile : Utf8.isValid imitation.file = true := by decide
  have hmessage : Utf8.isValid imitation.message = true := by decide
  have hfix : imitation.Reportable :=
    ⟨hrule, by decide, hfile, hmessage, by rintro r ⟨⟩; decide, by decide⟩
  have hnone : Failure.Reportable { imitation with fix := none } :=
    ⟨hrule, by decide, hfile, hmessage, by rintro r ⟨⟩, by decide⟩
  refine ⟨(json_lossless (by simp [hfix, hnone])).1, fun h ↦ ?_⟩
  have heq := (json_lossless (by simpa using hfix)).2 _ (by simpa using hnone) h
  exact absurd heq (by decide)

end Report

end ColonGap
