import ColonGap.Proofs.Descriptors
import ColonGap.Proofs.Reports
import ColonGap.Report
import Mathlib.Data.List.Basic

/-!
# Reports add up

A report tells, in the words of its format, how many failures there are and how many of them are
errors and warnings (`Tells`): the text report in its last line, the JSON report in its summary, and
a SARIF report in the levels of its results. If all failures are errors or warnings then the last
two numbers make the first (`render_addsUp`).

For the text and the JSON report only the sum depends on the severities. In a SARIF report every
failure that is no warning is an error, so there the single numbers do so too.
-/

namespace ColonGap

/-- The severities that a failure may have. -/
def Severity.IsGrade (s : Severity) : Prop :=
  s = error ∨ s = warning

namespace Failure

variable {failures : List Failure}

/-- Errors and warnings are all there is. -/
theorem count_add (h : ∀ f ∈ failures, f.severity.IsGrade) :
    (count failures).1 + (count failures).2 = failures.length := by
  have hwarning : failures.filter (·.severity == Severity.warning)
      = failures.filter fun f ↦ !(f.severity == Severity.error) := by
    refine List.filter_congr fun f hf ↦ ?_
    rcases h f hf with hseverity | hseverity <;> rw [hseverity] <;> decide
  rw [count, hwarning]
  exact (List.length_eq_length_filter_add _).symm

end Failure

namespace Report

variable {failures : List Failure}

/-! ### The numbers of a report -/

/-- The last line of a text report. -/
def summaryLine (errors warnings total : Nat) : Bytes :=
  utf8 "\n" ++ decimal total ++ utf8 " problems (" ++ decimal errors ++ utf8 " errors, "
    ++ decimal warnings ++ utf8 " warnings)\n"

/-- The levels of the results of a log with one run. -/
def levels? (log : Value) : Option (List Bytes) := do
  let [run] ← log.listAt? "runs" | none
  (← run.listAt? "results").mapM (·.textAt? "level")

/-- What a report of some format says: how many of the failures are errors, how many are warnings,
and how many there are. -/
def Format.Tells (errors warnings total : Nat) (report : Bytes) : Format → Prop
  | text => if total = 0 then report = [] else summaryLine errors warnings total <:+ report
  | json => ∃ value rest summary, read? report.length (skip report) = some (value, rest) ∧
      value.field? "summary" = some summary ∧ summary.numberAt? "errors" = some (errors : Int) ∧
      summary.numberAt? "warnings" = some (warnings : Int) ∧
      summary.numberAt? "total" = some (total : Int)
  | sarif => ∃ log levels, read? report.length report = some (log, []) ∧
      levels? log = some levels ∧ levels.count Severity.error = errors ∧
      levels.count Severity.warning = warnings ∧ levels.length = total

/-- The last line of a text report tells how many failures there are. -/
theorem text_tells (failures : List Failure) :
    Format.text.Tells (Failure.count failures).1 (Failure.count failures).2 failures.length
      (text failures) := by
  cases failures with
  | nil => rfl
  | cons f failures =>
    rw [Format.Tells, if_neg (by simp)]
    exact ⟨(f :: failures).flatMap textLine, by simp [text, summaryLine]⟩

theorem json_tells (failures : List Failure) :
    Format.json.Tells (Failure.count failures).1 (Failure.count failures).2 failures.length
      (json failures) :=
  ⟨_, _, _, read?_json failures, rfl, rfl, rfl, rfl⟩

/-- An error or a warning has its severity as its level. -/
theorem level_of_isGrade {s : Severity} (h : s.IsGrade) : level s = s := by
  rcases h with rfl | rfl <;> decide

/-- The level of a SARIF result is the severity of its failure, if that is an error or a warning. -/
theorem mapM_level_resultDocument (ds : List Descriptor)
    (h : ∀ f ∈ failures, f.severity.IsGrade) :
    (valuesOf (failures.map (resultDocument ds))).mapM (·.textAt? "level")
      = some (failures.map (·.severity)) := by
  induction failures with
  | nil => rfl
  | cons f failures ih =>
    have hgrade := h f List.mem_cons_self
    have hrepaired : Utf8.repaired f.severity = f.severity := by
      rcases hgrade with hseverity | hseverity <;> rw [hseverity] <;> decide
    have hlevel : (resultDocument ds f).value.textAt? "level"
        = some (Utf8.repaired (level f.severity)) := rfl
    rw [level_of_isGrade hgrade, hrepaired] at hlevel
    rw [List.map_cons, valuesOf, List.mapM_cons, hlevel,
      ih fun g hg ↦ h g (List.mem_cons_of_mem _ hg)]
    rfl

/-- The levels in a SARIF report tell how many failures there are. -/
theorem sarif_tells (rules : List Rule) (h : ∀ f ∈ failures, f.severity.IsGrade) :
    Format.sarif.Tells (Failure.count failures).1 (Failure.count failures).2 failures.length
      (sarif rules failures) := by
  have hlevels : levels? (sarifDocument rules failures).value = some (failures.map (·.severity)) :=
    mapM_level_resultDocument _ h
  refine ⟨_, _, read?_sarif rules failures, hlevels, ?_, ?_, List.length_map _⟩
  · rw [List.count, List.countP_map, List.countP_eq_length_filter]
    rfl
  · rw [List.count, List.countP_map, List.countP_eq_length_filter]
    rfl

/-- **A report adds up.** If all failures are errors or warnings, then the numbers of errors and of
warnings that a report tells make the number of failures. -/
theorem render_addsUp (format : Format) (rules : List Rule)
    (h : ∀ f ∈ failures, f.severity.IsGrade) :
    ∃ errors warnings, format.Tells errors warnings failures.length
        (format.render rules failures) ∧ errors + warnings = failures.length := by
  refine ⟨_, _, ?_, Failure.count_add h⟩
  cases format with
  | text => exact text_tells failures
  | json => exact json_tells failures
  | sarif => exact sarif_tells rules h

end Report

end ColonGap
