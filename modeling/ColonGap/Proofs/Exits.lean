import ColonGap.Proofs.Effects
import Mathlib.Data.List.Perm.Basic

/-!
# How runs end

A run ends with the worst of what happened to it. `Broken` and `Faulty` say what counts as an
error and what as a failure, without saying in which order things are looked at: each is about the
plan of the run and the set of its results. `run_exit` is the law, and what the exit code does not
depend on is part of it.

What can go wrong with a target is said without its result (`Fails`): it cannot be read or parsed,
the fixed text cannot be parsed, or the file system refuses it. Its result carries such an error
exactly then (`process_error_iff`).

The exit code is folded from the results one after another. Since the worse of two ends is
commutative and associative, the fold does not see their order (`exitOf_perm`).
-/

namespace ColonGap

namespace Exit

variable {a b c : Exit}

theorem worse_comm (a b : Exit) : a.worse b = b.worse a := by
  cases a <;> cases b <;> rfl

theorem worse_assoc (a b c : Exit) : (a.worse b).worse c = a.worse (b.worse c) := by
  cases a <;> cases b <;> cases c <;> rfl

theorem worse_eq_error_iff : a.worse b = error ↔ a = error ∨ b = error := by
  cases a <;> cases b <;> decide

theorem worse_eq_clean_iff : a.worse b = clean ↔ a = clean ∧ b = clean := by
  cases a <;> cases b <;> decide

end Exit

namespace Run

namespace Result

variable {r : Result}

/-- A result on its own makes a run end with an error if it carries one. -/
theorem exit_eq_error_iff : r.exit = .error ↔ r.error.isSome = true := by
  unfold exit
  split
  · simp [*]
  · split <;> simp [*]

/-- A result that shows a failure: one that is an error, or a diff. -/
def Shows (r : Result) : Prop :=
  r.diff ≠ [] ∨ ∃ f ∈ r.remaining, f.severity = Severity.error

/-- A result on its own lets a run end clean if it has no error and shows no failure. -/
theorem exit_eq_clean_iff : r.exit = .clean ↔ r.error.isSome = false ∧ ¬ r.Shows := by
  unfold exit Shows remaining
  cases r.error with
  | some e => simp
  | none => simp

end Result

/-! ### What goes wrong with a target -/

section Fails

variable {mode : Mode} {settings : List Setting} {stdin : Except Bytes Bytes} {faults : WriteFaults}
  {w : Workspace} {t : Target} {e : TargetError}

/-- What is wrong with a target. -/
inductive Fails (mode : Mode) (settings : List Setting) (stdin : Except Bytes Bytes)
    (faults : WriteFaults) (w : Workspace) (t : Target) : TargetError → Prop
  | stdin {message : Bytes} (ht : t.isStdin = true) (h : stdin = .error message) :
    Fails mode settings stdin faults w t (.stdin message)
  | unreadable {e : AccessError} (ht : t.isStdin = false) (h : w.read t.name = .error e) :
    Fails mode settings stdin faults w t (.unreadable e)
  | unparsable {source : Bytes} {e : SourceFile.ParseError}
    (hsource : sourceOf w stdin t = .ok source)
    (h : SourceFile.parse t.name source = .error e) :
    Fails mode settings stdin faults w t (.unparsable e)
  | broken {source : Bytes} {file : SourceFile} {e : SourceFile.ParseError} (hmode : mode ≠ .check)
    (hsource : sourceOf w stdin t = .ok source) (hfile : SourceFile.parse t.name source = .ok file)
    (h : Lint.fixAll file settings (Lint.run file settings) = .error e) :
    Fails mode settings stdin faults w t (.broken e)
  | unwritable {source text : Bytes} {fault : WriteFault} (hmode : mode = .fix)
    (ht : t.isStdin = false) (hsource : w.read t.name = .ok source)
    (htext : fixedText? settings t.name source = some text) (hne : text ≠ source)
    (h : faults t.name text = some fault) :
    Fails mode settings stdin faults w t (.unwritable t.name fault)

/-- A target has no source if it cannot be read. -/
theorem sourceOf_eq_error_iff :
    sourceOf w stdin t = .error e ↔
      (∃ message, t.isStdin = true ∧ stdin = .error message ∧ e = .stdin message) ∨
        ∃ access, t.isStdin = false ∧ w.read t.name = .error access ∧ e = .unreadable access := by
  unfold sourceOf
  cases ht : t.isStdin with
  | true => cases stdin <;> simp [Except.mapError, eq_comm]
  | false => cases hread : w.read t.name <;> simp [Except.mapError, eq_comm]

/-- A source has no findings if it cannot be parsed, or if what fixing makes of it cannot. -/
theorem examine_eq_error_iff {name source : Bytes} :
    examine mode settings name source = .error e ↔
      (∃ reason, SourceFile.parse name source = .error reason ∧ e = .unparsable reason) ∨
        ∃ file reason, mode ≠ .check ∧ SourceFile.parse name source = .ok file ∧
          Lint.fixAll file settings (Lint.run file settings) = .error reason ∧
          e = .broken reason := by
  unfold examine
  cases SourceFile.parse name source with
  | error reason => simp [eq_comm]
  | ok file =>
    cases mode with
    | check => simp
    | fix | diff =>
      dsimp only
      cases hfix : Lint.fixAll file settings (Lint.run file settings) with
      | error reason => simp [hfix, eq_comm (a := e)]
      | ok fixed => simp [hfix]

/-- With findings, only the write of a file that mending changed can go wrong. -/
theorem process_of_examine {source : Bytes} {found : Findings}
    (hsource : sourceOf w stdin t = .ok source)
    (hfound : examine mode settings t.name source = .ok found) :
    (process mode settings stdin faults w t).2.error = some e ↔
      mode = .fix ∧ t.isStdin = false ∧ found.output ≠ source ∧
        ∃ fault, faults t.name found.output = some fault ∧ .unwritable t.name fault = e := by
  rw [process, hsource]
  simp only [hfound, Workspace.store_eq]
  split
  case isTrue h =>
    simp only [Bool.and_eq_true, beq_iff_eq, Bool.not_eq_true', bne_iff_ne] at h
    obtain ⟨⟨hmode, ht⟩, hne⟩ := h
    simp only [Result.withFault, Option.map_eq_some_iff, hmode, ht, ne_eq, hne, not_false_eq_true,
      true_and]
    rfl
  case isFalse h =>
    simp only [Bool.and_eq_true, beq_iff_eq, Bool.not_eq_true', bne_iff_ne, not_and] at h
    refine iff_of_false (fun herror ↦ Option.some_ne_none e herror.symm) ?_
    rintro ⟨hmode, ht, hne, -⟩
    exact h ⟨hmode, ht⟩ hne

/-- **What goes wrong with a target** is what its result carries. -/
theorem process_error_iff :
    (process mode settings stdin faults w t).2.error = some e ↔
      Fails mode settings stdin faults w t e := by
  constructor
  · intro h
    cases hsource : sourceOf w stdin t with
    | error reason =>
      obtain rfl : reason = e := by simpa [process, hsource, Result.failed] using h
      obtain ⟨_, ht, hstdin, rfl⟩ | ⟨_, ht, hread, rfl⟩ := sourceOf_eq_error_iff.1 hsource
      · exact .stdin ht hstdin
      · exact .unreadable ht hread
    | ok source =>
      cases hfound : examine mode settings t.name source with
      | error reason =>
        obtain rfl : reason = e := by simpa [process, hsource, hfound, Result.failed] using h
        obtain ⟨_, hparse, rfl⟩ | ⟨_, _, hmode, hparse, hfix, rfl⟩ := examine_eq_error_iff.1 hfound
        · exact .unparsable hsource hparse
        · exact .broken hmode hsource hparse hfix
      | ok found =>
        obtain ⟨rfl, ht, hne, fault, hfault, rfl⟩ := (process_of_examine hsource hfound).1 h
        refine .unwritable rfl ht (read_of_sourceOf ht hsource) ?_ hne hfault
        rw [← examine_fix, hfound]
        rfl
  · intro h
    cases h with
    | stdin ht hstdin =>
      simp [process, sourceOf_eq_error_iff.2 (.inl ⟨_, ht, hstdin, rfl⟩), Result.failed]
    | unreadable ht hread =>
      simp [process, sourceOf_eq_error_iff.2 (.inr ⟨_, ht, hread, rfl⟩), Result.failed]
    | unparsable hsource hparse =>
      simp [process, hsource, examine_eq_error_iff.2 (.inl ⟨_, hparse, rfl⟩), Result.failed]
    | broken hmode hsource hfile hfix =>
      simp [process, hsource, examine_eq_error_iff.2 (.inr ⟨_, _, hmode, hfile, hfix, rfl⟩),
        Result.failed]
    | @unwritable source text fault hmode ht hread htext hne hfault =>
      subst hmode
      have hsource : sourceOf w stdin t = .ok source := by
        rw [sourceOf, if_neg (by simp [ht]), hread]
        rfl
      rw [← examine_fix, Option.map_eq_some_iff] at htext
      obtain ⟨found, hfound, rfl⟩ := htext
      have hfound : examine .fix settings t.name source = .ok found := eq_ok_of_toOption hfound
      exact (process_of_examine hsource hfound).2 ⟨rfl, ht, hne, fault, hfault, rfl⟩

end Fails

/-! ### Results together -/

variable {x : Target.Expansion} {results results' : List Result}

/-- The order of the results makes no difference. -/
theorem exitOf_perm (x : Target.Expansion) (h : results.Perm results') :
    exitOf x results = exitOf x results' := by
  refine h.foldl_eq' (fun a _ b _ exit ↦ ?_) _
  rw [Exit.worse_assoc, Exit.worse_comm a.exit, ← Exit.worse_assoc]

/-- Results end in an error exactly if the run did so before them or one of them has an error. -/
theorem foldl_worse_eq_error_iff (exit : Exit) :
    results.foldl (fun exit result ↦ exit.worse result.exit) exit = .error
      ↔ exit = .error ∨ ∃ res ∈ results, res.error.isSome = true := by
  induction results generalizing exit with
  | nil => simp
  | cons res results ih =>
    rw [List.foldl_cons, ih, Exit.worse_eq_error_iff, Result.exit_eq_error_iff, or_assoc]
    simp

/-- Results end clean exactly if the run was clean before them and none of them shows anything. -/
theorem foldl_worse_eq_clean_iff (exit : Exit) :
    results.foldl (fun exit result ↦ exit.worse result.exit) exit = .clean
      ↔ exit = .clean ∧ ∀ res ∈ results, res.error.isSome = false ∧ ¬ res.Shows := by
  induction results generalizing exit with
  | nil => simp
  | cons res results ih =>
    rw [List.foldl_cons, ih, Exit.worse_eq_clean_iff, Result.exit_eq_clean_iff, and_assoc]
    simp

theorem exitOf_eq_error_iff :
    exitOf x results = .error ↔ x.failed = true ∨ ∃ res ∈ results, res.error.isSome = true := by
  rw [exitOf, foldl_worse_eq_error_iff]
  cases x.failed <;> simp

theorem exitOf_eq_clean_iff :
    exitOf x results = .clean
      ↔ x.failed = false ∧ ∀ res ∈ results, res.error.isSome = false ∧ ¬ res.Shows := by
  rw [exitOf, foldl_worse_eq_clean_iff]
  cases x.failed <;> simp

/-! ### Whole runs -/

variable {registry : Registry} {env : Environment} {r : Request} {p : Plan}

/-- A run that ends with an error: it is not configured, an argument cannot be expanded, or the
result of a target carries an error. -/
inductive Broken (registry : Registry) (env : Environment) (r : Request) : Prop
  | unconfigured (h : Unconfigured registry env.workspace r)
  | arguments {p : Plan} (h : plan? registry env.workspace r = some p)
      (hfailed : p.expansion.failed = true)
  | target {p : Plan} (h : plan? registry env.workspace r = some p) {res : Result}
      (hres : res ∈ p.results env r.mode) (herror : res.error.isSome = true)

/-- A run that has something to report: a failure is left that is an error, or a diff is not
empty. -/
inductive Faulty (registry : Registry) (env : Environment) (r : Request) : Prop
  | failure {p : Plan} (h : plan? registry env.workspace r = some p) {f : Failure}
      (hf : f ∈ remaining (p.results env r.mode)) (hseverity : f.severity = Severity.error)
  | diff {p : Plan} (h : plan? registry env.workspace r = some p) {res : Result}
      (hres : res ∈ p.results env r.mode) (hdiff : res.diff ≠ [])

/-- With a plan, a run is broken if its targets could not be found or one of them has an error. -/
theorem broken_iff_of_plan? (h : plan? registry env.workspace r = some p) :
    Broken registry env r ↔ p.expansion.failed = true ∨
      ∃ res ∈ p.results env r.mode, res.error.isSome = true := by
  constructor
  · rintro (hnone | ⟨h', hfailed⟩ | ⟨h', hres, herror⟩)
    · cases h.symm.trans (plan?_eq_none_iff.2 hnone)
    · cases h.symm.trans h'
      exact .inl hfailed
    · cases h.symm.trans h'
      exact .inr ⟨_, hres, herror⟩
  · rintro (hfailed | ⟨res, hres, herror⟩)
    · exact .arguments h hfailed
    · exact .target h hres herror

/-- With a plan, a run is faulty if one of its results shows something. -/
theorem faulty_iff_of_plan? (h : plan? registry env.workspace r = some p) :
    Faulty registry env r ↔ ∃ res ∈ p.results env r.mode, res.Shows := by
  constructor
  · rintro (⟨h', hf, hseverity⟩ | ⟨h', hres, hdiff⟩)
    · cases h.symm.trans h'
      obtain ⟨res, hres, hf⟩ := List.mem_flatMap.1 hf
      exact ⟨res, hres, .inr ⟨_, hf, hseverity⟩⟩
    · cases h.symm.trans h'
      exact ⟨_, hres, .inl hdiff⟩
  · rintro ⟨res, hres, hdiff | ⟨f, hf, hseverity⟩⟩
    · exact .diff h hres hdiff
    · exact .failure h (List.mem_flatMap.2 ⟨res, hres, hf⟩) hseverity

/-- Without trouble in writing and unless it is called off, a run with a plan ends as its results
say. -/
theorem run_exit_of_plan? (hstdout : env.stdoutError = none) (hgoes : env.interrupted = false)
    (h : plan? registry env.workspace r = some p) :
    (run registry env r).exit = exitOf p.expansion (p.results env r.mode) := by
  rw [run_of_plan? h, runTargets]
  simp only [hgoes, Bool.false_and, Bool.false_eq_true, if_false, finish, hstdout]
  split
  · rfl
  · split <;> rfl

/-- A run that cannot be configured ends in an error. -/
theorem run_exit_of_unconfigured (h : Unconfigured registry env.workspace r) :
    (run registry env r).exit = .error := by
  obtain ⟨log, hrun⟩ := run_of_unconfigured h
  rw [hrun]
  rfl

/-- How a run ends is determined by the settings and the expansion in its plan. -/
theorem run_exit_congr {r' : Request} (hstdout : env.stdoutError = none)
    (hgoes : env.interrupted = false) (hmode : r'.mode = r.mode)
    (h : (plan? registry env.workspace r').map (fun p ↦ (p.settings, p.expansion))
      = (plan? registry env.workspace r).map fun p ↦ (p.settings, p.expansion)) :
    (run registry env r').exit = (run registry env r).exit := by
  cases hp : plan? registry env.workspace r with
  | none =>
    have hp' : plan? registry env.workspace r' = none := by simpa [hp] using h
    rw [run_exit_of_unconfigured (plan?_eq_none_iff.1 hp),
      run_exit_of_unconfigured (plan?_eq_none_iff.1 hp')]
  | some p =>
    rw [hp, Option.map_some, Option.map_eq_some_iff] at h
    obtain ⟨p', hp', heq⟩ := h
    obtain ⟨hsettings, hexpansion⟩ := Prod.mk.inj heq
    rw [run_exit_of_plan? hstdout hgoes hp, run_exit_of_plan? hstdout hgoes hp', hexpansion, hmode]
    simp only [Plan.results, Plan.processed, hsettings, hexpansion]

/-- **The exit code.** It is 2 for a run that is broken, 1 for one that is not broken but faulty,
and 0 for any other. It does not depend on the order of the results, on how much is reported or
logged, or on which of the formats is chosen. -/
theorem run_exit (registry : Registry) (env : Environment) (r : Request)
    (hstdout : env.stdoutError = none) (hgoes : env.interrupted = false) :
    ((run registry env r).exit.code = 2 ↔ Broken registry env r) ∧
      ((run registry env r).exit.code = 1
        ↔ ¬ Broken registry env r ∧ Faulty registry env r) ∧
      ((run registry env r).exit.code = 0
        ↔ ¬ Broken registry env r ∧ ¬ Faulty registry env r) ∧
      (∀ p results, plan? registry env.workspace r = some p →
        results.Perm (p.results env r.mode) →
        (run registry env r).exit = exitOf p.expansion results) ∧
      (∀ quiet verbose, (run registry env { r with quiet := quiet, verbose := verbose }).exit
        = (run registry env r).exit) ∧
      ∀ f g : Report.Format, (run registry env { r with format := utf8 f.name }).exit
        = (run registry env { r with format := utf8 g.name }).exit := by
  have herror : (run registry env r).exit = .error ↔ Broken registry env r := by
    cases hp : plan? registry env.workspace r with
    | none =>
      have hnone := plan?_eq_none_iff.1 hp
      simp [run_exit_of_unconfigured hnone, Broken.unconfigured hnone]
    | some p =>
      rw [run_exit_of_plan? hstdout hgoes hp, exitOf_eq_error_iff, broken_iff_of_plan? hp]
  have hclean : (run registry env r).exit = .clean
      ↔ ¬ Broken registry env r ∧ ¬ Faulty registry env r := by
    cases hp : plan? registry env.workspace r with
    | none =>
      have hnone := plan?_eq_none_iff.1 hp
      simp [run_exit_of_unconfigured hnone, Broken.unconfigured hnone]
    | some p =>
      rw [run_exit_of_plan? hstdout hgoes hp, exitOf_eq_clean_iff, broken_iff_of_plan? hp,
        faulty_iff_of_plan? hp]
      simp only [not_or, Bool.not_eq_true, not_exists, not_and, and_assoc, forall_and]
  refine ⟨?_, ?_, ?_, ?_, ?_, ?_⟩
  · rw [← herror]
    cases (run registry env r).exit <;> decide
  · rw [← herror]
    by_cases hfaulty : Faulty registry env r
    · simp only [hfaulty, not_true, and_false, iff_false, and_true] at hclean ⊢
      cases h : (run registry env r).exit <;> simp_all [Exit.code]
    · simp only [hfaulty, not_false_eq_true, and_true, and_false, iff_false, ← herror] at hclean ⊢
      cases h : (run registry env r).exit <;> simp_all [Exit.code]
  · rw [← hclean]
    cases (run registry env r).exit <;> decide
  · intro p results hp hperm
    rw [run_exit_of_plan? hstdout hgoes hp, exitOf_perm _ hperm]
  · exact fun quiet verbose ↦ run_exit_congr hstdout hgoes rfl rfl
  · intro f g
    refine run_exit_congr hstdout hgoes rfl ?_
    rw [plan?_format, plan?_format, Option.map_map, Option.map_map]
    rfl

/-- A directory with one script in it, in which a blank stands before a colon. -/
def oneScript : Environment where
  workspace := ⟨.directory (.ofList [(utf8 "a.js", .file (utf8 "x = \x7ba : 1\x7d"))]), []⟩
  stdin := .ok []
  stdoutError := none
  interrupted := false

/-- The directory with the script, which nobody may write. -/
def lockedScript : Environment :=
  { oneScript with writeFaults := fun _ _ ↦ some (.unopened (utf8 "permission denied")) }

/-- Checking the script fails without an error, and fixing it is an error if it may not be
written. -/
theorem run_exit_oneScript :
    oneScript.stdoutError = none ∧ oneScript.interrupted = false ∧
      ¬ Broken .builtin oneScript (.check [utf8 "a.js"]) ∧
      Faulty .builtin oneScript (.check [utf8 "a.js"]) ∧
      Broken .builtin lockedScript { Request.check [utf8 "a.js"] with mode := .fix } := by
  have hcode : (run .builtin oneScript (.check [utf8 "a.js"])).exit.code = 1 := by decide +kernel
  have hlocked : (run .builtin lockedScript
      { Request.check [utf8 "a.js"] with mode := .fix }).exit.code = 2 := by decide +kernel
  obtain ⟨hnot, hfaulty⟩ :=
    (run_exit .builtin oneScript (.check [utf8 "a.js"]) rfl rfl).2.1.1 hcode
  exact ⟨rfl, rfl, hnot, hfaulty, (run_exit .builtin lockedScript _ rfl rfl).1.1 hlocked⟩

/-! ### Trouble in writing -/

/-- Whether a run with some targets writes its report to standard output. -/
def reportsToStdout (r : Request) (x : Target.Expansion) : Bool :=
  r.mode != .diff && !(r.mode == .fix && x.targets.any (·.isStdin))

/-- **What is not written.** If standard output takes nothing, a run ends with an error if it has a
report to write there. It ends as its results say otherwise, so diffs and the fixed text of standard
input are lost without a trace. -/
theorem run_exit_of_stdoutError {message : Bytes} (hstdout : env.stdoutError = some message)
    (hgoes : env.interrupted = false) (h : plan? registry env.workspace r = some p) :
    (run registry env r).exit
      = if reportsToStdout r p.expansion
            && !(reportText p.format registry r (p.results env r.mode)).isEmpty then .error
        else exitOf p.expansion (p.results env r.mode) := by
  have hresults : (processAll r.mode p.settings env.stdin env.writeFaults
      env.workspace p.expansion.targets).2
      = p.results env r.mode := rfl
  rw [run_of_plan? h, runTargets, reportsToStdout]
  simp only [hgoes, Bool.false_and, Bool.false_eq_true, if_false, finish, hstdout, hresults]
  cases hdiff : r.mode == .diff with
  | true => simp [bne, hdiff]
  | false =>
    cases honStderr : r.mode == .fix && p.expansion.targets.any (·.isStdin) with
    | true => simp
    | false =>
      cases hreport : (reportText p.format registry r (p.results env r.mode)).isEmpty with
      | true => simp
      | false => simp [bne, hdiff]

/-- A script on standard input, and no room for what becomes of it. -/
def noRoom : Environment where
  workspace := ⟨.empty, []⟩
  stdin := .ok (utf8 "x = \x7ba : 1\x7d")
  stdoutError := some (utf8 "disk full")
  interrupted := false

/-- The run that fixes the script ends clean, although it loses the script. -/
theorem run_exit_noRoom :
    let r : Request := { Request.check [utf8 "-"] with mode := .fix }
    (run .builtin noRoom r).exit = .clean ∧ (run .builtin noRoom r).stdout = [] ∧
      (run .builtin { noRoom with stdoutError := none } r).stdout = utf8 "x = \x7ba: 1\x7d" := by
  decide +kernel

end Run

end ColonGap
