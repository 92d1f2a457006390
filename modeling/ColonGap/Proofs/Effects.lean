import ColonGap.Proofs.Files
import ColonGap.Proofs.Plan
import Mathlib.Data.List.Nodup

/-!
# What a run does to files and streams

Only fixing writes files, and only those that are targets. `fixedText?` is what fixing makes of a
source, and `run_effects` says that this is what a target holds in the end, and what standard
output receives for standard input.

## Step and run

Processing one target changes the place that its path leads to and no other
(`agreesOutside_process`), and leaves there what fixing makes of it, as far as the file system takes
it (`read_process`). For a list of targets the first of these facts adds up by itself
(`agreesOutside_processAll`); the second needs that no two targets lead to the same place, for then
a target is processed as it was found and left alone afterwards (`read_processAll`).
-/

namespace ColonGap

namespace Target

variable {w : Workspace} {c : Config} {paths : List Bytes} {t s : Target}

/-! ### Standard input among the targets -/

/-- What is left when repeated names are left out was there before, under a name not seen yet. -/
theorem mem_distinct {seen : List Bytes} {targets : List Target} (h : t ∈ distinct seen targets) :
    t ∈ targets ∧ t.name ∉ seen := by
  induction targets generalizing seen with
  | nil => cases h
  | cons s targets ih =>
    rw [distinct] at h
    split at h
    case isTrue =>
      obtain ⟨hmem, hseen⟩ := ih h
      exact ⟨List.mem_cons_of_mem _ hmem, hseen⟩
    case isFalse hnew =>
      rcases List.mem_cons.1 h with rfl | h
      · exact ⟨List.mem_cons_self, by simpa using hnew⟩
      · obtain ⟨hmem, hseen⟩ := ih h
        exact ⟨List.mem_cons_of_mem _ hmem, fun hold ↦ hseen (List.mem_cons_of_mem _ hold)⟩

/-- No two targets that are left have the same name. -/
theorem nodup_distinct (seen : List Bytes) (targets : List Target) :
    ((distinct seen targets).map (·.name)).Nodup := by
  induction targets generalizing seen with
  | nil => exact List.nodup_nil
  | cons s targets ih =>
    rw [distinct]
    split
    · exact ih seen
    · rw [List.map_cons, List.nodup_cons]
      refine ⟨fun h ↦ ?_, ih _⟩
      obtain ⟨t, ht, hname⟩ := List.mem_map.1 h
      exact (mem_distinct ht).2 (hname ▸ List.mem_cons_self)

/-- No two targets of a run have the same name. -/
theorem nodup_expand (w : Workspace) (c : Config) (paths : List Bytes) :
    ((expand w c paths).targets.map (·.name)).Nodup := by
  unfold expand
  split
  · simp
  · split
    · simp
    · exact nodup_distinct _ _

/-- Standard input is a target by itself, whatever path it comes from. -/
theorem eq_stdin_of_mem_expandPath {filter : Filter} {path : Bytes}
    (h : t ∈ (expandPath w filter path).targets) (ht : t.isStdin = true) : t = stdin := by
  unfold expandPath at h
  split at h
  · simpa using h
  · split at h
    · cases h
    · obtain rfl : t = ofFile path := by simpa using h
      cases ht
    · obtain ⟨file, -, rfl⟩ := List.mem_map.1 h
      cases ht

/-- Standard input is a target by itself, whatever paths the targets come from. -/
theorem eq_stdin_of_mem_foldr {filter : Filter}
    (h : t ∈ (paths.foldr (fun path rest ↦ (expandPath w filter path).append rest)
      .nothing).targets) (ht : t.isStdin = true) : t = stdin := by
  induction paths with
  | nil => cases h
  | cons path paths ih =>
    rcases List.mem_append.1 h with h | h
    · exact eq_stdin_of_mem_expandPath h ht
    · exact ih h

/-- Standard input is a target under one name only. -/
theorem eq_stdin_of_mem_expand (h : t ∈ (expand w c paths).targets) (ht : t.isStdin = true) :
    t = stdin := by
  unfold expand at h
  split at h
  · simpa using h
  · split at h
    · cases h
    · exact eq_stdin_of_mem_foldr (mem_distinct h).1 ht

end Target

namespace Run

variable {settings : List Setting} {stdin : Except Bytes Bytes} {faults : WriteFaults}
  {w : Workspace} {t : Target} {targets : List Target}

/-- What fixing makes of a source: nothing if it cannot be parsed, before or after. -/
def fixedText? (settings : List Setting) (name source : Bytes) : Option Bytes :=
  match SourceFile.parse name source with
  | .error _ => none
  | .ok file =>
    match Lint.fixAll file settings (Lint.run file settings) with
    | .error _ => none
    | .ok fixed => some fixed.output

/-- What a file with some source holds after it was fixed: the fixed text, if there is one that is
new and if the file system takes it. -/
def heldText (settings : List Setting) (faults : WriteFaults) (name source : Bytes) : Bytes :=
  match fixedText? settings name source with
  | none => source
  | some text => if text = source then source else (Workspace.stored? faults name text).getD source

/-- If the file system takes everything, a file holds what fixing makes of it. -/
theorem heldText_of_takes {name : Bytes} (h : ∀ text, faults name text = none) (source : Bytes) :
    heldText settings faults name source = (fixedText? settings name source).getD source := by
  rw [heldText]
  cases fixedText? settings name source with
  | none => rfl
  | some text =>
    simp only [Workspace.stored?, h, Option.getD_some]
    split
    case isTrue heq => exact heq.symm
    case isFalse => rfl

/-- The places that the files among the targets are at. -/
def Touches (w : Workspace) (targets : List Target) (names : List Bytes) : Prop :=
  ∃ t ∈ targets, t.isStdin = false ∧ w.locate t.name = .ok names

/-- Two targets that are not files at the same place. -/
def ApartIn (w : Workspace) (s t : Target) : Prop :=
  s.isStdin = false → t.isStdin = false → ∀ names, w.locate s.name = .ok names →
    w.locate t.name ≠ .ok names

/-- The output of fixing a source is the fixed text, if there is one. -/
theorem examine_fix (settings : List Setting) (name source : Bytes) :
    (examine .fix settings name source).toOption.map (·.output)
      = fixedText? settings name source := by
  unfold examine fixedText?
  cases SourceFile.parse name source with
  | error e => rfl
  | ok file =>
    dsimp only
    cases Lint.fixAll file settings (Lint.run file settings) <;> rfl

/-! ### One target -/

/-- The source of a target that is no standard input is what its file holds. -/
theorem read_of_sourceOf {source : Bytes} (ht : t.isStdin = false)
    (h : sourceOf w stdin t = .ok source) : w.read t.name = .ok source := by
  simp only [sourceOf, ht, Bool.false_eq_true, if_false] at h
  cases hread : w.read t.name with
  | error e =>
    rw [hread] at h
    cases h
  | ok content =>
    rw [hread] at h
    exact congrArg _ (Except.ok.inj h)

/-- Only fixing changes the workspace. -/
theorem process_of_mode_ne {mode : Mode} (h : mode ≠ .fix) :
    (process mode settings stdin faults w t).1 = w := by
  have hmode : (mode == Mode.fix) = false := beq_eq_false_iff_ne.2 h
  unfold process
  split
  · rfl
  · split
    · rfl
    · simp [hmode]

/-- Fixing standard input does not change the workspace. -/
theorem process_fix_stdin (h : t.isStdin = true) :
    (process .fix settings stdin faults w t).1 = w := by
  unfold process
  split
  · rfl
  · split <;> simp [h]

/-- A file is written if fixing changes it, and is left alone otherwise. -/
theorem process_fix_file (h : t.isStdin = false) :
    (process .fix settings stdin faults w t).1
      = match w.read t.name with
        | .error _ => w
        | .ok source =>
          match fixedText? settings t.name source with
          | none => w
          | some text => if text = source then w else (w.store faults t.name text).1 := by
  unfold process sourceOf
  simp only [h, Bool.false_eq_true, if_false]
  cases w.read t.name with
  | error e => rfl
  | ok source =>
    simp only [Except.mapError, ← examine_fix]
    cases examine .fix settings t.name source with
    | error e => rfl
    | ok found =>
      simp only [Except.toOption, Option.map_some]
      by_cases hsame : found.output = source <;> simp [hsame]

/-- Fixing a target changes the place that its path leads to and no other. -/
theorem agreesOutside_process :
    w.AgreesOutside (Touches w [t]) (process .fix settings stdin faults w t).1 := by
  cases ht : t.isStdin with
  | true =>
    rw [process_fix_stdin ht]
    exact .refl w
  | false =>
    rw [process_fix_file ht]
    cases hread : w.read t.name with
    | error e => exact .refl w
    | ok source =>
      dsimp only
      cases fixedText? settings t.name source with
      | none => exact .refl w
      | some text =>
        dsimp only
        split
        · exact .refl w
        · exact (Workspace.agreesOutside_store hread faults text).mono fun names hnames ↦
            ⟨t, List.mem_singleton_self t, ht, hnames⟩

/-- A file holds afterwards what fixing makes of it, as far as it is taken; where fixing fails it
holds what it held. -/
theorem read_process (ht : t.isStdin = false) :
    (process .fix settings stdin faults w t).1.read t.name
      = (w.read t.name).map (heldText settings faults t.name) := by
  rw [process_fix_file ht]
  cases hread : w.read t.name with
  | error e => exact hread
  | ok source =>
    simp only [Except.map, heldText]
    cases fixedText? settings t.name source with
    | none => exact hread
    | some text =>
      dsimp only
      split
      case isTrue => exact hread
      case isFalse => exact Workspace.read_store hread faults text

/-- Of the results of fixing, only that of standard input has something for standard output. -/
theorem output_process :
    (process .fix settings stdin faults w t).2.output
      = if t.isStdin then
          match stdin with
          | .error _ => []
          | .ok source => (fixedText? settings t.name source).getD []
        else [] := by
  unfold process sourceOf
  cases ht : t.isStdin with
  | true =>
    cases stdin with
    | error e => rfl
    | ok source =>
      simp only [if_true, Except.mapError, ← examine_fix]
      cases examine .fix settings t.name source with
      | error e => rfl
      | ok found => simp [Result.output, Result.ofFindings, ht, Except.toOption]
  | false =>
    simp only [Bool.false_eq_true, if_false]
    cases (w.read t.name) with
    | error e => rfl
    | ok source =>
      simp only [Except.mapError]
      cases examine .fix settings t.name source with
      | error e => rfl
      | ok found =>
        by_cases hsame : found.output = source <;>
          simp [Result.output, Result.ofFindings, Result.withFault, ht, hsame]

/-! ### All targets -/

/-- Only fixing changes the workspace, for any number of targets. -/
theorem processAll_of_mode_ne {mode : Mode} (h : mode ≠ .fix) (targets : List Target) :
    (processAll mode settings stdin faults w targets).1 = w := by
  induction targets with
  | nil => rfl
  | cons t targets ih =>
    simp only [processAll, process_of_mode_ne h, ih]

/-- Only places of targets change. -/
theorem agreesOutside_processAll (targets : List Target) :
    w.AgreesOutside (Touches w targets) (processAll .fix settings stdin faults w targets).1 := by
  induction targets generalizing w with
  | nil => exact .refl w
  | cons t targets ih =>
    have hstep := @agreesOutside_process settings stdin faults w t
    refine (hstep.mono ?_).trans ((@ih (process .fix settings stdin faults w t).1).mono ?_)
    · rintro names ⟨s, hs, hfile, hnames⟩
      rw [List.mem_singleton.1 hs] at hfile hnames
      exact ⟨t, List.mem_cons_self, hfile, hnames⟩
    · rintro names ⟨s, hs, hfile, hnames⟩
      rw [hstep.locate] at hnames
      exact ⟨s, List.mem_cons_of_mem _ hs, hfile, hnames⟩

/-- Targets at different places each hold in the end what fixing makes of them, as far as it is
taken. -/
theorem read_processAll (h : targets.Pairwise (ApartIn w)) (ht : t ∈ targets)
    (hfile : t.isStdin = false) :
    (processAll .fix settings stdin faults w targets).1.read t.name
      = (w.read t.name).map (heldText settings faults t.name) := by
  induction targets generalizing w with
  | nil => cases ht
  | cons s targets ih =>
    obtain ⟨hs, hrest⟩ := List.pairwise_cons.1 h
    have hstep := @agreesOutside_process settings stdin faults w s
    change (processAll .fix settings stdin faults
      (process .fix settings stdin faults w s).1 targets).1.read _ = _
    rcases List.mem_cons.1 ht with rfl | ht
    · -- The targets behind it leave alone what has been written.
      rw [(agreesOutside_processAll targets).read, read_process hfile]
      rintro names hnames ⟨s, hs', hfile', hnames'⟩
      rw [hstep.locate] at hnames hnames'
      exact hs s hs' hfile hfile' names hnames hnames'
    · rw [ih (hrest.imp fun hapart ↦ ?_) ht, hstep.read]
      · rintro names hnames ⟨s', hs', hfile', hnames'⟩
        rw [List.mem_singleton.1 hs'] at hfile' hnames'
        exact hs t ht hfile' hfile names hnames' hnames
      · intro hfile₁ hfile₂ names
        rw [hstep.locate, hstep.locate]
        exact hapart hfile₁ hfile₂ names

/-- Fixing files gives nothing to standard output. -/
theorem outputs_of_files (h : ∀ t ∈ targets, t.isStdin = false) :
    (processAll .fix settings stdin faults w targets).2.flatMap Result.output = [] := by
  induction targets generalizing w with
  | nil => rfl
  | cons t targets ih =>
    rw [processAll, List.flatMap_cons, output_process, h t List.mem_cons_self,
      ih fun s hs ↦ h s (List.mem_cons_of_mem _ hs)]
    rfl

/-- What the results have for standard output is what fixing makes of standard input. -/
theorem outputs_processAll (hnodup : (targets.map (·.name)).Nodup)
    (hstdin : ∀ t ∈ targets, t.isStdin = true → t = Target.stdin) (h : Target.stdin ∈ targets) :
    (processAll .fix settings stdin faults w targets).2.flatMap Result.output
      = match stdin with
        | .error _ => []
        | .ok source => (fixedText? settings Target.stdinName source).getD [] := by
  induction targets generalizing w with
  | nil => cases h
  | cons t targets ih =>
    obtain ⟨hnew, hnodup⟩ := List.nodup_cons.1 hnodup
    rw [processAll, List.flatMap_cons, output_process]
    rcases List.mem_cons.1 h with rfl | h
    · -- Its name is taken, so there is no second one.
      have hfiles : ∀ s ∈ targets, s.isStdin = false := fun s hs ↦ by
        by_contra hs'
        have hs' := hstdin s (List.mem_cons_of_mem _ hs) (by simpa using hs')
        exact hnew (List.mem_map.2 ⟨s, hs, by rw [hs']⟩)
      rw [outputs_of_files hfiles, List.append_nil]
      rfl
    · have ht : t.isStdin = false := by
        by_contra ht
        have ht := hstdin t List.mem_cons_self (by simpa using ht)
        exact hnew (List.mem_map.2 ⟨_, h, by rw [ht]⟩)
      rw [ht, ih hnodup (fun s hs ↦ hstdin s (List.mem_cons_of_mem _ hs)) h]
      rfl

/-! ### Whole runs -/

variable {registry : Registry} {env : Environment} {r : Request} {p : Plan}

/-- The targets of a plan are those that the arguments give under the configuration. -/
theorem exists_expand_of_plan? (h : plan? registry w r = some p) :
    ∃ c, p.expansion = Target.expand w c r.paths := by
  unfold plan? at h
  split at h
  case h_1 => cases h
  case h_2 c _ =>
    split at h
    case h_1 => cases h
    case h_2 =>
      obtain ⟨format, -, rfl⟩ := Option.map_eq_some_iff.1 h
      exact ⟨c, rfl⟩

/-- Reporting leaves the files alone. -/
theorem run_workspace (hgoes : env.interrupted = false)
    (h : plan? registry env.workspace r = some p) :
    (run registry env r).workspace = (p.processed env r.mode).1 := by
  rw [run_of_plan? h, runTargets]
  simp only [hgoes, Bool.false_and, Bool.false_eq_true, if_false, finish]
  split
  · rfl
  · split
    · rfl
    · split <;> rfl

/-- With standard input among the targets, fixing writes the report to standard error. -/
theorem run_streams (hgoes : env.interrupted = false) (hmode : r.mode = .fix)
    (h : plan? registry env.workspace r = some p) (hstdin : Target.stdin ∈ p.expansion.targets) :
    (run registry env r).stdout
        = recorded env ((p.results env r.mode).flatMap Result.output) ∧
      ∃ log, (run registry env r).stderr
        = Log.render r.logLevel log ++ reportText p.format registry r (p.results env r.mode) := by
  have hany : p.expansion.targets.any (·.isStdin) = true :=
    List.any_eq_true.2 ⟨_, hstdin, rfl⟩
  rw [run_of_plan? h, runTargets]
  simp only [hgoes, Bool.false_and, Bool.false_eq_true, if_false, finish, hmode, hany,
    Bool.and_self, beq_self_eq_true, if_true]
  exact ⟨rfl, _, rfl⟩

/-- **What a run does to files and streams.** A run that does not fix, or that has no plan, leaves
the files as they are. One that fixes changes nothing but targets. If the targets are different
files, each of them holds in the end what fixing makes of its content, as far as the file system
takes it, and what it held where it cannot be read, parsed or parsed again. If standard input is
among them, standard output receives what fixing makes of it and nothing else, and the report goes
to standard error. -/
theorem run_effects (registry : Registry) (env : Environment) (r : Request)
    (hgoes : env.interrupted = false) :
    (r.mode ≠ .fix ∨ Unconfigured registry env.workspace r →
      (run registry env r).workspace = env.workspace) ∧
    ∀ p, r.mode = .fix → plan? registry env.workspace r = some p →
      (∀ names, ¬ Touches env.workspace p.expansion.targets names →
        (run registry env r).workspace.look names = env.workspace.look names) ∧
      (p.expansion.targets.Pairwise (ApartIn env.workspace) →
        ∀ t ∈ p.expansion.targets, t.isStdin = false →
          (run registry env r).workspace.read t.name
              = (env.workspace.read t.name).map (heldText p.settings env.writeFaults t.name) ∧
            ((∀ text, env.writeFaults t.name text = none) →
              (run registry env r).workspace.read t.name
                = (env.workspace.read t.name).map fun source ↦
                    (fixedText? p.settings t.name source).getD source)) ∧
      (Target.stdin ∈ p.expansion.targets →
        (env.stdoutError = none → (run registry env r).stdout
          = match env.stdin with
            | .error _ => []
            | .ok source => (fixedText? p.settings Target.stdinName source).getD []) ∧
        ∃ log, (run registry env r).stderr
          = Log.render r.logLevel log
            ++ reportText p.format registry r (p.results env r.mode)) := by
  refine ⟨?_, fun p hmode hp ↦ ⟨?_, ?_, fun hstdin ↦ ⟨fun hstdout ↦ ?_, ?_⟩⟩⟩
  · intro h
    cases hp : plan? registry env.workspace r with
    | none =>
      obtain ⟨log, hrun⟩ := run_of_unconfigured (plan?_eq_none_iff.1 hp)
      rw [hrun]
      rfl
    | some p =>
      have hmode : r.mode ≠ .fix := by
        rcases h with h | h
        · exact h
        · cases hp.symm.trans (plan?_eq_none_iff.2 h)
      rw [run_workspace hgoes hp]
      exact processAll_of_mode_ne hmode _
  · intro names hnames
    rw [run_workspace hgoes hp, Plan.processed, hmode]
    exact (agreesOutside_processAll _).look names hnames
  · intro hapart t ht hfile
    have hheld : (run registry env r).workspace.read t.name
        = (env.workspace.read t.name).map (heldText p.settings env.writeFaults t.name) := by
      rw [run_workspace hgoes hp, Plan.processed, hmode]
      exact read_processAll hapart ht hfile
    refine ⟨hheld, fun htakes ↦ ?_⟩
    rw [hheld, funext (heldText_of_takes htakes)]
  · obtain ⟨c, hexpand⟩ := exists_expand_of_plan? hp
    rw [(run_streams hgoes hmode hp hstdin).1, recorded, hstdout, hmode]
    refine outputs_processAll ?_ (fun t ht ↦ ?_) hstdin
    · rw [hexpand]
      exact Target.nodup_expand _ _ _
    · rw [hexpand] at ht
      exact Target.eq_stdin_of_mem_expand ht
  · exact (run_streams hgoes hmode hp hstdin).2

/-- Two scripts, of which the second is broken off, and one on standard input. -/
def threeScripts : Environment where
  workspace := ⟨.directory (.ofList [(utf8 "a.js", .file (utf8 "x = \x7ba : 1\x7d")),
    (utf8 "b.js", .file (utf8 "x = \x7bb : "))]), []⟩
  stdin := .ok (utf8 "y = \x7bc : 2\x7d")
  stdoutError := none
  interrupted := false

/-- Fix the three scripts. -/
def fixThree : Request :=
  { Request.check [utf8 "a.js", utf8 "b.js", utf8 "-"] with mode := .fix }

/-- The plan for the three scripts. -/
def planThree : Plan where
  settings := [⟨Rule.BeforeColon.rule, Severity.error, .text (utf8 "nospace")⟩]
  format := .text
  log := [Log.debug "rule enabled" [("rule", .text Rule.BeforeColon.name),
    ("severity", .text Severity.error), ("option", .option (.text (utf8 "nospace")))]]
  expansion := ⟨[.ofFile (utf8 "a.js"), .ofFile (utf8 "b.js"), .stdin], [], false⟩

/-- The first script and standard input are fixed, and the second script is left as it is. -/
theorem run_effects_threeScripts :
    let outcome := run .builtin threeScripts fixThree
    threeScripts.interrupted = false ∧ fixThree.mode = .fix ∧
      plan? .builtin threeScripts.workspace fixThree = some planThree ∧
      planThree.expansion.targets.Pairwise (ApartIn threeScripts.workspace) ∧
      outcome.workspace.read (utf8 "a.js") = .ok (utf8 "x = \x7ba: 1\x7d") ∧
      outcome.workspace.read (utf8 "b.js") = .ok (utf8 "x = \x7bb : ") ∧
      outcome.stdout = utf8 "y = \x7bc: 2\x7d" := by
  have hp : plan? .builtin threeScripts.workspace fixThree = some planThree := rfl
  have ha : threeScripts.workspace.locate (utf8 "a.js") = .ok [utf8 "a.js"] := by decide +kernel
  have hb : threeScripts.workspace.locate (utf8 "b.js") = .ok [utf8 "b.js"] := by decide +kernel
  have hne : utf8 "a.js" ≠ utf8 "b.js" := by decide
  have hapart : planThree.expansion.targets.Pairwise (ApartIn threeScripts.workspace) := by
    simp [planThree, ApartIn, Target.ofFile, Target.stdin, ha, hb, hne.symm]
  obtain ⟨-, hread, hstream⟩ := (run_effects .builtin threeScripts fixThree rfl).2 _ rfl hp
  refine ⟨rfl, rfl, hp, hapart, ?_, ?_, ?_⟩
  · exact ((hread hapart (.ofFile (utf8 "a.js")) (by decide) rfl).2 fun _ ↦ rfl).trans
      (by decide +kernel)
  · exact ((hread hapart (.ofFile (utf8 "b.js")) (by decide) rfl).2 fun _ ↦ rfl).trans
      (by decide +kernel)
  · exact ((hstream (by decide)).1 rfl).trans (by decide +kernel)

end Run

end ColonGap
