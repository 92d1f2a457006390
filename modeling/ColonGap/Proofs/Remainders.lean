import ColonGap.Proofs.Blanks
import ColonGap.Run.Result

/-!
# What fixing leaves

The failures that fixing leaves are the failures of the text it leaves: linting that text again
reports them and nothing else (`fixAll_remaining`). This holds for all rules, also for such whose
fixes are in each other's way, and wherever the loop ends: because no fix applies, because none was
skipped, or because there have been enough passes.

## The invariant

A text and a list of failures belong together if the text can be parsed and linting it gives these
failures (`Reports`). A pass starts from such a pair and, unless it ends the loop at once, makes
another (`fixPasses_succ`); the loop returns the last one.
-/

namespace ColonGap

namespace Lint

variable {name source : Bytes} {file : SourceFile} {settings : List Setting}
  {failures : List Failure} {fixed : Fixed} {passes : Nat}

/-- A text can be parsed, and linting it gives the failures. -/
def Reports (name : Bytes) (settings : List Setting) (source : Bytes) (failures : List Failure) :
    Prop :=
  ∃ file, SourceFile.parse name source = .ok file ∧ failures = run file settings

/-- What a pass that returns comes to: nothing applies and all is as before, or the fixes that apply
make a text whose failures are reported, which is the end if no fix was skipped, and else goes
through the passes that are left. -/
theorem fixPasses_succ (h : fixPasses name settings (passes + 1) source failures = .ok fixed) :
    (fixed = ⟨source, [], failures⟩ ∧ (Fix.apply source failures).applied = []) ∨
      ∃ failures', (Fix.apply source failures).applied ≠ [] ∧
        Reports name settings (Fix.apply source failures).output failures' ∧
        (((Fix.apply source failures).skipped = [] ∧
            fixed = ⟨(Fix.apply source failures).output, (Fix.apply source failures).applied,
              failures'⟩) ∨
          ((Fix.apply source failures).skipped ≠ [] ∧
            ∃ rest, fixPasses name settings passes (Fix.apply source failures).output failures'
                = .ok rest ∧
              fixed = ⟨rest.output, (Fix.apply source failures).applied ++ rest.applied,
                rest.remaining⟩)) := by
  rw [fixPasses] at h
  dsimp only at h
  split at h
  case isTrue hempty =>
    exact .inl ⟨(Except.ok.inj h).symm, List.isEmpty_iff.1 hempty⟩
  case isFalse hne =>
    split at h
    case h_1 => cases h
    case h_2 next hnext =>
      refine .inr ⟨run next settings, fun hnil ↦ hne (List.isEmpty_iff.2 hnil), ⟨next, hnext, rfl⟩,
        ?_⟩
      split at h
      case isTrue hskipped =>
        exact .inl ⟨List.isEmpty_iff.1 hskipped, (Except.ok.inj h).symm⟩
      case isFalse hskipped =>
        split at h
        case h_1 => cases h
        case h_2 rest hrest =>
          exact .inr ⟨fun hnil ↦ hskipped (List.isEmpty_iff.2 hnil), rest, hrest,
            (Except.ok.inj h).symm⟩

/-- However many passes there may be, the failures that are left are those of the text that is
left. -/
theorem fixPasses_reports (hreports : Reports name settings source failures)
    (h : fixPasses name settings passes source failures = .ok fixed) :
    Reports name settings fixed.output fixed.remaining ∧
      (fixed.applied = [] → fixed.output = source) := by
  induction passes generalizing source failures fixed with
  | zero =>
    obtain rfl := Except.ok.inj h
    exact ⟨hreports, fun _ ↦ rfl⟩
  | succ passes ih =>
    obtain ⟨rfl, -⟩ | ⟨failures', hne, hreports', ⟨-, rfl⟩ | ⟨-, rest, hrest, rfl⟩⟩ :=
      fixPasses_succ h
    · exact ⟨hreports, fun _ ↦ rfl⟩
    · exact ⟨hreports', fun hnil ↦ absurd hnil hne⟩
    · exact ⟨(ih hreports' hrest).1, fun hnil ↦ absurd (List.append_eq_nil_iff.1 hnil).1 hne⟩

/-- **What is left is what linting finds.** When a source has been fixed, the result can be parsed,
the failures left are those of linting the result, and a source to which no fix was applied is as it
was. -/
theorem fixAll_remaining (h : SourceFile.parse name source = .ok file)
    (hfixed : fixAll file settings (run file settings) = .ok fixed) :
    (∃ next, SourceFile.parse name fixed.output = .ok next ∧
        fixed.remaining = run next settings) ∧
      (fixed.applied = [] → fixed.output = source) := by
  obtain ⟨hname, hsource, -⟩ := SourceFile.parse_eq_ok h
  rw [fixAll, hname, hsource] at hfixed
  exact fixPasses_reports ⟨file, h, rfl⟩ hfixed

/-- Two fixes insert at one place, so that each pass skips one of them, and the loop ends after the
last pass. -/
theorem fixAll_remaining_lastPass :
    let blank : Failure := .ofRange 0 0 (utf8 "indent") (some ⟨0, 0, utf8 " "⟩)
    let rule : Rule :=
      { name := utf8 "indent", description := [], options := none, rationale := none
        fixable := true, optionError := fun _ ↦ none, check := fun _ _ ↦ [blank, blank] }
    let settings : List Setting := [⟨rule, Severity.warning, .null⟩]
    ∃ file fixed, SourceFile.parse (utf8 "a.js") (utf8 "x") = .ok file ∧
      fixAll file settings (run file settings) = .ok fixed ∧
      fixed.output = utf8 "          x" ∧ fixed.applied.length = maxFixPasses ∧
      fixed.remaining.length = 2 ∧
      ∃ next, SourceFile.parse (utf8 "a.js") fixed.output = .ok next ∧
        fixed.remaining = run next settings := by
  intro blank rule settings
  have hout : ((SourceFile.parse (utf8 "a.js") (utf8 "x")).toOption.bind fun file ↦
      (fixAll file settings (run file settings)).toOption.map fun fixed ↦
        (fixed.output, fixed.applied.length, fixed.remaining.length))
        = some (utf8 "          x", maxFixPasses, 2) := by decide +kernel
  cases hfile : SourceFile.parse (utf8 "a.js") (utf8 "x") with
  | error e => simp [hfile, Except.toOption] at hout
  | ok file =>
    cases hfixed : fixAll file settings (run file settings) with
    | error e => simp [hfile, hfixed, Except.toOption] at hout
    | ok fixed =>
      simp only [hfile, hfixed, Except.toOption, Option.bind_some, Option.map_some,
        Option.some.injEq, Prod.mk.injEq] at hout
      exact ⟨file, fixed, rfl, hfixed, hout.1, hout.2.1, hout.2.2,
        (fixAll_remaining hfile hfixed).1⟩

end Lint

namespace Run

/-- A source that has been fixed is checked with the same failures, and checking leaves it. -/
theorem examine_check_output {settings : List Setting} {name source : Bytes} {found : Findings}
    (h : examine .fix settings name source = .ok found) :
    examine .check settings name found.output = .ok ⟨found.failures, [], found.output⟩ := by
  rw [examine] at h
  split at h
  case h_1 => cases h
  case h_2 file hfile =>
    obtain ⟨hname, hsource, -⟩ := SourceFile.parse_eq_ok hfile
    dsimp only at h
    split at h
    case h_1 => cases h
    case h_2 fixed hfixed =>
      obtain rfl := Except.ok.inj h
      rw [Lint.fixAll, hname, hsource] at hfixed
      obtain ⟨⟨next, hnext, hremaining⟩, -⟩ := Lint.fixPasses_reports ⟨file, hfile, rfl⟩ hfixed
      rw [examine, hnext, hremaining]

end Run

end ColonGap
