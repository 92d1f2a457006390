import ColonGap.Proofs.Choices
import ColonGap.Proofs.Plan
import ColonGap.Proofs.Remainders
import ColonGap.Proofs.Resolution
import ColonGap.Proofs.Tallies

/-!
# What a configuration guarantees

A run that has a configuration has all it needs but usable rules (`configure_suffices`): the format
of the report exists, at least one file is linted at a time, and every failure is an error or a
warning, so the reports add up.

The last of these follows failures from the rules to the reports. The severity of a rule that is on
becomes that of its setting, which is an error unless it is a warning (`isGrade_of_settings`), and
the severity of the setting is stamped on its failures. Nothing makes failures but linting: those
that fixing applies or leaves are the failures of a text that was linted on the way
(`Lint.finds_of_fixPasses`), and those of the results are what linting or fixing gave
(`Run.finds_of_mem_processAll`).
-/

namespace ColonGap

/-! ### Where failures come from -/

namespace Lint

variable {name source : Bytes} {settings : List Setting} {failures : List Failure} {fixed : Fixed}
  {passes : Nat} {f : Failure}

/-- A failure is found in some file. -/
def Finds (settings : List Setting) (f : Failure) : Prop :=
  ∃ file, f ∈ run file settings

theorem Reports.finds (h : Reports name settings source failures) (hf : f ∈ failures) :
    Finds settings f := by
  obtain ⟨file, -, rfl⟩ := h
  exact ⟨file, hf⟩

/-- Each pass applies failures that were found before, and leaves others that are found then. -/
theorem finds_of_fixPasses (hfailures : ∀ f ∈ failures, Finds settings f)
    (h : fixPasses name settings passes source failures = .ok fixed) :
    ∀ f ∈ fixed.applied ++ fixed.remaining, Finds settings f := by
  induction passes generalizing source failures fixed with
  | zero =>
    obtain rfl := Except.ok.inj h
    exact hfailures
  | succ passes ih =>
    have happlied : ∀ f ∈ (Fix.apply source failures).applied, Finds settings f :=
      fun f hf ↦ hfailures f (Fix.mem_of_mem_applied hf)
    obtain ⟨rfl, -⟩ | ⟨failures', -, hreports, ⟨-, rfl⟩ | ⟨-, rest, hrest, rfl⟩⟩ :=
      fixPasses_succ h
    · exact hfailures
    · exact List.forall_mem_append.2 ⟨happlied, fun f ↦ hreports.finds⟩
    · rw [List.append_assoc]
      exact List.forall_mem_append.2 ⟨happlied, ih (fun f ↦ hreports.finds) hrest⟩

/-- If the settings have the severities of failures, so have the failures. -/
theorem Finds.isGrade (hsettings : ∀ s ∈ settings, s.severity.IsGrade) (h : Finds settings f) :
    f.severity.IsGrade := by
  obtain ⟨file, hf⟩ := h
  obtain ⟨s, hs, g, -, rfl⟩ := mem_run.1 hf
  show Severity.IsGrade (if s.severity.isEmpty then Severity.error else s.severity)
  split
  case isTrue => exact .inl rfl
  case isFalse => exact hsettings s hs

end Lint

namespace Config

variable {registry : Registry} {c : Config} {settings : List Setting}

/-- The severity of a setting is an error or a warning. -/
theorem IsSetting.isGrade {entry : Bytes × RuleConfig} {s : Setting}
    (h : IsSetting registry entry s) : s.severity.IsGrade := by
  rw [h.severity]
  split
  case isTrue => exact .inr rfl
  case isFalse => exact .inl rfl

/-- A rule that is on has the severity of an error or a warning. -/
theorem isGrade_of_settings (h : (c.settings registry).2 = .ok settings) :
    ∀ s ∈ settings, s.severity.IsGrade := by
  rcases settingsOf_cases registry c.strictOptions c.ruleList.entries with
    ⟨_, _, _, -, -, -, herror⟩ | ⟨-, others, hok, hall⟩
  · cases h.symm.trans herror
  · obtain rfl := Except.ok.inj (h.symm.trans hok)
    have hgrades := hall.flip.imp fun s entry (h : IsSetting registry entry s) ↦
      And.intro h.isGrade h
    exact ((List.forall₂_and_left _ _).1 hgrades).1

/-- If there is a processor, files are linted. -/
theorem one_le_workers (c : Config) {processors : Nat} (h : 1 ≤ processors) :
    1 ≤ c.workers processors := by
  rw [workers]
  split
  case isTrue => exact h
  case isFalse hpositive => omega

end Config

namespace Run

variable {mode : Mode} {settings : List Setting} {stdin : Except Bytes Bytes}
  {faults : WriteFaults} {w : Workspace} {target : Target} {targets : List Target} {res : Result}

/-- The failures that examining a source gives are such that linting finds. -/
theorem finds_of_examine {name source : Bytes} {found : Findings}
    (h : examine mode settings name source = .ok found) :
    ∀ f ∈ found.applied ++ found.failures, Lint.Finds settings f := by
  rw [examine] at h
  cases hparse : SourceFile.parse name source with
  | error e =>
    rw [hparse] at h
    cases h
  | ok file =>
    have hlinted : ∀ f ∈ Lint.run file settings, Lint.Finds settings f := fun f hf ↦ ⟨file, hf⟩
    simp only [hparse] at h
    cases mode with
    | check =>
      obtain rfl := Except.ok.inj h
      exact hlinted
    | fix | diff =>
      cases hfixed : Lint.fixAll file settings (Lint.run file settings) with
      | error e =>
        rw [hfixed] at h
        cases h
      | ok fixed =>
        rw [hfixed] at h
        obtain rfl := Except.ok.inj h
        exact Lint.finds_of_fixPasses hlinted hfixed

/-- The failures in the result of a target are such that linting finds. -/
theorem finds_of_process :
    ∀ f ∈ (process mode settings stdin faults w target).2.applied
        ++ (process mode settings stdin faults w target).2.failures, Lint.Finds settings f := by
  rw [process]
  cases sourceOf w stdin target with
  | error e => simp [Result.failed]
  | ok source =>
    cases hfound : examine mode settings target.name source with
    | error e => simp [hfound, Result.failed]
    | ok found =>
      simp only [hfound]
      split
      · exact finds_of_examine hfound
      · exact finds_of_examine hfound

/-- What the results of targets hold was found in some file. -/
theorem finds_of_mem_processAll (h : res ∈ (processAll mode settings stdin faults w targets).2) :
    ∀ f ∈ res.applied ++ res.failures, Lint.Finds settings f := by
  induction targets generalizing w with
  | nil => cases h
  | cons target targets ih =>
    rcases List.mem_cons.1 h with rfl | h
    · exact finds_of_process
    · exact ih h

/-- What a run reports of some results. -/
def reported (r : Request) (results : List Result) : List Failure :=
  if r.quiet then Failure.errorsOnly (remaining results) else remaining results

/-- A failure that is reported is one of a result. -/
theorem mem_of_mem_reported {r : Request} {results : List Result} {f : Failure}
    (h : f ∈ reported r results) : ∃ res ∈ results, f ∈ res.failures := by
  have hremaining : f ∈ remaining results := by
    rw [reported] at h
    split at h
    · exact List.mem_of_mem_filter h
    · exact h
  obtain ⟨res, hres, hf⟩ := List.mem_flatMap.1 hremaining
  rw [Result.remaining] at hf
  split at hf
  · cases hf
  · exact ⟨res, hres, hf⟩

/-- **A configuration suffices.** A run with a configuration is not kept from its targets unless a
rule is not usable: the format of its report exists. At least one file is linted at a time. All
failures of all targets are errors or warnings, and so in every report the numbers of errors and
warnings make the number of failures. -/
theorem configure_suffices {env : Environment} {r : Request} {c : Config}
    (h : configure env.workspace r = .ok c) :
    (∃ format, Report.Format.ofName? c.format = some format ∧
      ∀ registry log settings, c.settings registry = (log, .ok settings) →
        run registry env r = runTargets env r registry settings format log
          (Target.expand env.workspace c r.paths)) ∧
      (∀ processors, 1 ≤ processors → 1 ≤ c.workers processors) ∧
      ∀ registry settings, (c.settings registry).2 = .ok settings →
        ∀ mode stdin faults w targets,
          let results := (processAll mode settings stdin faults w targets).2
          (∀ res ∈ results, ∀ f ∈ res.applied ++ res.failures, f.severity.IsGrade) ∧
            ∀ (format : Report.Format) r', ∃ errors warnings,
              format.Tells errors warnings (reported r' results).length
                (reportText format registry r' results) ∧
              errors + warnings = (reported r' results).length := by
  obtain ⟨format, hformat⟩ := Config.exists_of_isFormat (isFormat_of_configure h)
  have hname : Report.Format.ofName? c.format = some format := by
    rw [hformat, Config.ofName?_name]
  refine ⟨⟨format, hname, fun registry log settings hsettings ↦ ?_⟩,
    fun processors ↦ c.one_le_workers, ?_⟩
  · rw [run, h]
    simp only [hsettings, hname]
  · intro registry settings hsettings mode stdin faults w targets results
    have hgrade : ∀ res ∈ results, ∀ f ∈ res.applied ++ res.failures, f.severity.IsGrade :=
      fun res hres f hf ↦
        (finds_of_mem_processAll hres f hf).isGrade (Config.isGrade_of_settings hsettings)
    refine ⟨hgrade, fun format r' ↦ ?_⟩
    refine Report.render_addsUp format registry.all fun f hf ↦ ?_
    obtain ⟨res, hres, hf⟩ := mem_of_mem_reported hf
    exact hgrade res hres f (List.mem_append_right _ hf)

/-- A configuration that makes a blank before a colon a warning. -/
def warningConfig : Bytes :=
  utf8 "lint: \x7bconcurrency: 2, rules: \x7bwhitespace-before-colon: \x7bseverity: warning"
    ++ utf8 "\x7d\x7d\x7d"

/-- A directory with a script in which a blank stands before a colon, and the configuration. -/
def warned : Environment where
  workspace := ⟨.directory (.ofList [(utf8 "a.js", .file (utf8 "x = \x7ba : 1\x7d")),
    (utf8 "colonlint.yml", .file warningConfig)]), []⟩
  stdin := .ok []
  stdoutError := none
  interrupted := false

/-- A run that asks for another format and overrides the option of the rule. -/
def asksJson : Request :=
  { Request.check [utf8 "a.js"] with
    format := utf8 "json", overrides := [utf8 "whitespace-before-colon = nospace"] }

/-- A run with two workers reports one warning, and its report says so. -/
theorem configure_suffices_warned :
    ∃ c settings, configure warned.workspace asksJson = .ok c ∧
      (c.settings .builtin).2 = .ok settings ∧ c.workers 4 = 2 ∧ 1 ≤ c.workers 4 ∧
      let results :=
        (processAll .check settings warned.stdin warned.writeFaults warned.workspace
          [⟨utf8 "a.js", false⟩]).2
      (∀ res ∈ results, ∀ f ∈ res.applied ++ res.failures, f.severity.IsGrade) ∧
        ∃ errors warnings,
          Report.Format.json.Tells errors warnings 1 (reportText .json .builtin asksJson results) ∧
          errors + warnings = 1 := by
  have hview : ((configure warned.workspace asksJson).toOption.bind fun c ↦
      (c.settings .builtin).2.toOption.map fun settings ↦
        (c.workers 4, (reported asksJson (processAll .check settings warned.stdin
          warned.writeFaults warned.workspace [⟨utf8 "a.js", false⟩]).2).length)) = some (2, 1) := by
    decide +kernel
  obtain ⟨c, hc, hview⟩ := Option.bind_eq_some_iff.1 hview
  obtain ⟨settings, hs, hview⟩ := Option.map_eq_some_iff.1 hview
  obtain ⟨hworkers, hlength⟩ := Prod.mk.inj hview
  have hconfig := eq_ok_of_toOption hc
  have hsettings := eq_ok_of_toOption hs
  obtain ⟨-, hpositive, hresults⟩ := configure_suffices hconfig
  obtain ⟨hgrade, htells⟩ := hresults .builtin settings hsettings .check warned.stdin
    warned.writeFaults warned.workspace [⟨utf8 "a.js", false⟩]
  have htold := htells .json asksJson
  rw [hlength] at htold
  exact ⟨c, settings, hconfig, hsettings, hworkers, hpositive 4 (by decide), hgrade, htold⟩

end Run

end ColonGap
