import ColonGap.Proofs.Blanks
import ColonGap.Proofs.Diffs
import ColonGap.Proofs.Effects

/-!
# A diff shows what fixing does

Diffing and fixing a target read the same source and make the same of it, so they fail alike, leave
the same failures, and what the one shows is the diff to what the other writes
(`process_diff_fix`).

## Why no fix is hidden

A diff compares lines, and a last line without a line feed counts as if it had one. So a diff can be
empty although the texts differ, but only in a line feed at the end (`eq_of_lines_eq`), and fixing
keeps the line breaks of a text.
-/

namespace ColonGap

/-! ### Texts with the same lines -/

/-- A line feed at the end is one more line break. -/
theorem lineBreaks_feed (s : Bytes) : lineBreaks (s ++ [10]) = lineBreaks s ++ [10] := by
  rw [lineBreaks, Utf8.glyphs_append (Utf8.starts_cons_of_lt (by decide) _), List.map_append,
    List.filter_append, lineBreaks]
  rfl

theorem lineBreaks_feed_ne (s : Bytes) : lineBreaks (s ++ [10]) ≠ lineBreaks s := by
  rw [lineBreaks_feed]
  exact fun h ↦ absurd (congrArg List.length h) (by simp)

/-- Texts with the same lines and the same line breaks are the same. -/
theorem eq_of_lines_eq {s t : Bytes} (hlines : Diff.lines s = Diff.lines t)
    (hbreaks : lineBreaks s = lineBreaks t) : s = t := by
  rcases Diff.lines_eq_iff.1 hlines with hsame | ⟨-, rfl⟩ | ⟨-, rfl⟩
  · exact hsame
  · exact absurd hbreaks.symm (lineBreaks_feed_ne s)
  · exact absurd hbreaks (lineBreaks_feed_ne t)

namespace Run

variable {settings : List Setting} {stdin : Except Bytes Bytes} {w : Workspace} {t : Target}
  {name source : Bytes} {found : Findings}

/-- A diff is made of what fixing would write. -/
theorem examine_diff (settings : List Setting) (name source : Bytes) :
    examine .diff settings name source = examine .fix settings name source := by
  rw [examine, examine]

/-- Fixing keeps the line breaks of a source. -/
theorem lineBreaks_of_examine (hsettings : ∀ s ∈ settings, s.rule = Rule.BeforeColon.rule)
    (h : examine .fix settings name source = .ok found) :
    lineBreaks found.output = lineBreaks source := by
  rw [examine] at h
  split at h
  case h_1 => cases h
  case h_2 file hfile =>
    dsimp only at h
    split at h
    case h_1 => cases h
    case h_2 fixed hfixed =>
      obtain rfl := Except.ok.inj h
      obtain ⟨-, hsource, -⟩ := SourceFile.parse_eq_ok hfile
      rw [Lint.fixAll, hsource] at hfixed
      have hsolid := Lint.fixPasses_solid hsettings
        (fun f hf r ↦ Lint.harmless_of_mem_run hfile hsettings hf) hfixed
      rw [lineBreaks_eq, lineBreaks_eq, hsolid]

/-- The diff to what fixing makes of a source is empty if and only if it makes nothing new of it. -/
theorem unified_examine_eq_nil_iff (hsettings : ∀ s ∈ settings, s.rule = Rule.BeforeColon.rule)
    (h : examine .fix settings name source = .ok found) :
    Diff.unified name source found.output = [] ↔ found.output = source := by
  rw [Diff.unified_eq_nil_iff]
  constructor
  · intro hlines
    exact (eq_of_lines_eq hlines (lineBreaks_of_examine hsettings h).symm).symm
  · intro hsame
    rw [hsame]

/-- **Previews.** Under settings of the rule on gaps, a target that the file system lets be written
is diffed as it is fixed. Diffing changes no file. Both carry the same error, or both end well with
the same failures left; then the diff leads from the source to what fixing writes, to standard
output or to the file, and it is empty if and only if this is the source. -/
theorem process_diff_fix (settings : List Setting) (stdin : Except Bytes Bytes)
    (faults : WriteFaults) (w : Workspace) (t : Target)
    (hsettings : ∀ s ∈ settings, s.rule = Rule.BeforeColon.rule)
    (htakes : ∀ text, faults t.name text = none) :
    let shown := process .diff settings stdin faults w t
    let fixed := process .fix settings stdin faults w t
    shown.1 = w ∧
      ((∃ e, shown.2.error = some e ∧ fixed.2.error = some e ∧ fixed.1 = w) ∨
        ∃ source out, sourceOf w stdin t = .ok source ∧
          shown.2.error = none ∧ fixed.2.error = none ∧
          shown.2.failures = fixed.2.failures ∧
          shown.2.diff = Diff.unified t.name source out ∧
          (t.isStdin = true → fixed.2.fixed = some out ∧ fixed.1 = w) ∧
          (t.isStdin = false → fixed.1 = (if out = source then w else w.write t.name out) ∧
            fixed.1.read t.name = .ok out) ∧
          (shown.2.diff = [] ↔ out = source)) := by
  intro shown fixed
  have hmode : (Mode.diff == Mode.fix) = false := rfl
  refine ⟨process_of_mode_ne (by decide), ?_⟩
  cases hsource : sourceOf w stdin t with
  | error e =>
    left
    exact ⟨e, by simp [shown, process, hsource, Result.failed],
      by simp [fixed, process, hsource, Result.failed], by simp [fixed, process, hsource]⟩
  | ok source =>
    cases hfound : examine .fix settings t.name source with
    | error e =>
      left
      exact ⟨e, by simp [shown, process, hsource, examine_diff, hfound, Result.failed],
        by simp [fixed, process, hsource, hfound, Result.failed],
        by simp [fixed, process, hsource, hfound]⟩
    | ok found =>
      right
      have hshown : shown = (w, .ofFindings .diff t source found) := by
        simp [shown, process, hsource, examine_diff, hfound, hmode]
      have hfixed : fixed = (if t.isStdin = false ∧ found.output ≠ source then
          w.write t.name found.output else w, .ofFindings .fix t source found) := by
        have hkept : (Result.ofFindings .fix t source found).withFault none
            = .ofFindings .fix t source found := rfl
        simp only [fixed, process, hsource, hfound, Workspace.store_of_takes (htakes _), hkept]
        by_cases hsame : found.output = source <;> cases t.isStdin <;> simp [hsame]
      have hempty := unified_examine_eq_nil_iff hsettings hfound
      refine ⟨source, found.output, rfl, ?_⟩
      rw [hshown, hfixed]
      refine ⟨rfl, rfl, rfl, rfl, fun ht ↦ ⟨?_, ?_⟩, fun ht ↦ ?_, hempty⟩
      · simp [Result.ofFindings, ht]
      · simp [ht]
      · have hread := read_of_sourceOf ht hsource
        by_cases hsame : found.output = source
        · simp [ht, hsame, hread]
        · simp [ht, hsame, Workspace.read_write hread]

/-- The gap is in a last line without a line feed: the diff is not empty, and fixing writes the
file. -/
theorem process_diff_fix_lastLine :
    let settings : List Setting := [⟨Rule.BeforeColon.rule, Severity.error, .text (utf8 "nospace")⟩]
    let w : Workspace := ⟨.directory (.ofList [(utf8 "a.js", .file (utf8 "x = \x7ba : 1\x7d"))]), []⟩
    let t := Target.ofFile (utf8 "a.js")
    (∀ s ∈ settings, s.rule = Rule.BeforeColon.rule) ∧
      (∀ text, WriteFaults.none t.name text = none) ∧
      (process .diff settings (.ok []) .none w t).2.diff
        = Diff.unified t.name (utf8 "x = \x7ba : 1\x7d") (utf8 "x = \x7ba: 1\x7d") ∧
      (process .diff settings (.ok []) .none w t).2.diff ≠ [] ∧
      (process .fix settings (.ok []) .none w t).1.read t.name = .ok (utf8 "x = \x7ba: 1\x7d") := by
  intro settings w t
  have hsettings : ∀ s ∈ settings, s.rule = Rule.BeforeColon.rule := by simp [settings]
  have hread : (process .fix settings (.ok []) .none w t).1.read t.name
      = .ok (utf8 "x = \x7ba: 1\x7d") := by decide +kernel
  have herror : (process .fix settings (.ok []) .none w t).2.error = none := by decide +kernel
  obtain ⟨-, ⟨e, -, he, -⟩ | ⟨source, out, hsource, -, -, -, hdiff, -, hfile, hempty⟩⟩ :=
    process_diff_fix settings (.ok []) .none w t hsettings fun _ ↦ rfl
  · cases herror.symm.trans he
  · obtain rfl : source = utf8 "x = \x7ba : 1\x7d" := by
      have hw : w.read t.name = .ok (utf8 "x = \x7ba : 1\x7d") := by decide +kernel
      exact Except.ok.inj ((read_of_sourceOf rfl hsource).symm.trans hw)
    obtain rfl : out = utf8 "x = \x7ba: 1\x7d" := Except.ok.inj ((hfile rfl).2.symm.trans hread)
    exact ⟨hsettings, fun _ ↦ rfl, hdiff, hempty.not.2 (by decide), hread⟩

end Run

end ColonGap
