import ColonGap.Run
import Mathlib.Tactic.Common

/-!
# What a run sets out to do

Before a run processes anything it has a *plan*: the settings, the format of the report, what has
been logged so far, and the targets. A run without a plan stops where it is, and all others are
`runTargets` of their plan (`run_eq`).

The format of a report never keeps a run from having a plan: a configuration is checked before it
is used, and the check refuses a format that does not exist (`plan?_eq_none_iff`). So the plan
depends on the choice among the formats in this one component only (`plan?_format`).
-/

namespace ColonGap

/-- What can be taken out of a result was its value. -/
theorem eq_ok_of_toOption {ε α : Type} {x : Except ε α} {a : α} (h : x.toOption = some a) :
    x = .ok a := by
  cases x with
  | error e => cases h
  | ok b => exact congrArg _ (Option.some.inj h)

namespace Config

variable {c c' : Config}

/-- The configuration with another format. -/
def withFormat (c : Config) (f : Report.Format) : Config :=
  { c with format := utf8 f.name }

@[simp] theorem isFormat_name (f : Report.Format) : isFormat (utf8 f.name) = true := by
  cases f <;> decide

@[simp] theorem ofName?_name (f : Report.Format) :
    Report.Format.ofName? (utf8 f.name) = some f := by
  cases f <;> decide

theorem exists_of_isFormat {s : Bytes} (h : isFormat s = true) :
    ∃ f, s = utf8 (Report.Format.name f) := by
  obtain ⟨f, -, hf⟩ := List.any_eq_true.1 h
  exact ⟨f, (beq_iff_eq.1 hf).symm⟩

/-- A configuration that is valid is left as it is, and its format exists. -/
theorem validate_eq_ok (h : c.validate = .ok c') : c' = c ∧ isFormat c.format = true := by
  unfold validate at h
  split at h
  case h_1 hnone =>
    obtain rfl := Except.ok.inj h
    refine ⟨rfl, ?_⟩
    by_contra hformat
    simp [violations, violationsAlong, hformat] at hnone
  case h_2 => cases h

/-- A text that is a configuration is decoded to it, and it is valid. -/
theorem parse_eq_ok {text : Bytes} (h : parse text = .ok c) :
    ofText text = .ok c ∧ c.validate = .ok c := by
  unfold parse at h
  split at h
  case h_1 => cases h
  case h_2 decoded hdecoded =>
    split at h
    case h_1 => cases h
    case h_2 valid hvalid =>
      obtain rfl := Except.ok.inj h
      obtain ⟨rfl, -⟩ := validate_eq_ok hvalid
      exact ⟨hdecoded, hvalid⟩

/-- Which of the formats is asked for makes no difference to the validity of a configuration. -/
theorem validate_withFormat (h : isFormat c.format = true) (f : Report.Format) :
    (c.withFormat f).validate = c.validate.map (·.withFormat f) := by
  have hviolations : (c.withFormat f).violations = c.violations := by
    have hf : isFormat (c.withFormat f).format = true := isFormat_name f
    rw [violations, violations, violationsAlong, violationsAlong, if_pos h, if_pos hf]
    rfl
  unfold validate
  rw [hviolations]
  split <;> rfl

/-- Overriding options does not see the format. -/
theorem override_withFormat (f : Report.Format) (texts : List Bytes) :
    (c.withFormat f).override texts = (c.override texts).map (·.withFormat f) := by
  induction texts generalizing c with
  | nil => rfl
  | cons text texts ih =>
    rw [override, override]
    cases Override.ofText? text with
    | none => rfl
    | some o => exact @ih (c.apply o)

/-- Overriding options keeps the format. -/
theorem format_of_override {texts : List Bytes} (h : c.override texts = .ok c') :
    c'.format = c.format := by
  induction texts generalizing c with
  | nil =>
    obtain rfl := Except.ok.inj h
    rfl
  | cons text texts ih =>
    rw [override] at h
    cases ho : Override.ofText? text with
    | none => simp [ho] at h
    | some o => exact @ih (c.apply o) (by simpa only [ho] using h)

/-- A configuration that is read from a file was parsed from its text. -/
theorem exists_parse_of_loadFile {w : Workspace} {path : Bytes} (h : loadFile w path = .ok c) :
    ∃ text, parse text = .ok c := by
  unfold loadFile at h
  split at h
  case h_1 => cases h
  case h_2 text _ =>
    cases hparse : parse text with
    | error e =>
      rw [hparse] at h
      cases h
    | ok c' =>
      rw [hparse] at h
      obtain rfl := Except.ok.inj h
      exact ⟨text, hparse⟩

/-- What is loaded is the standard configuration or that of a text. -/
theorem load_cases {w : Workspace} {path : Bytes} (h : load w path = .ok c) :
    c = standard ∨ ∃ text, parse text = .ok c := by
  unfold load at h
  split at h
  · split at h
    · exact .inr (exists_parse_of_loadFile h)
    · exact .inl (Except.ok.inj h).symm
  · exact .inr (exists_parse_of_loadFile h)

/-- A configuration that is loaded has a format that exists. -/
theorem isFormat_of_load {w : Workspace} {path : Bytes} (h : load w path = .ok c) :
    isFormat c.format = true := by
  obtain rfl | ⟨text, hparse⟩ := load_cases h
  · decide
  · exact (validate_eq_ok (parse_eq_ok hparse).2).2

end Config

namespace Run

variable {registry : Registry} {env : Environment} {w : Workspace} {r : Request}

/-! ### Configurations -/

/-- The configuration of a run is one that is loaded, with the format and the overrides that are
asked for, and it is valid. -/
theorem configure_cases {c : Config} (h : configure w r = .ok c) :
    ∃ loaded, Config.load w r.configPath = .ok loaded ∧
      (if r.format.isEmpty then loaded else { loaded with format := r.format }).override r.overrides
        = .ok c ∧
      c.validate = .ok c := by
  unfold configure at h
  split at h
  case h_1 => cases h
  case h_2 loaded hload =>
    dsimp only at h
    split at h
    case h_1 => cases h
    case h_2 c' hoverride =>
      cases hvalid : c'.validate with
      | error e =>
        rw [hvalid] at h
        cases h
      | ok c'' =>
        rw [hvalid] at h
        obtain rfl := Except.ok.inj h
        obtain ⟨rfl, -⟩ := Config.validate_eq_ok hvalid
        exact ⟨loaded, hload, hoverride, hvalid⟩

theorem isFormat_of_configure {c : Config} (h : configure w r = .ok c) :
    Config.isFormat c.format = true := by
  obtain ⟨-, -, -, hvalid⟩ := configure_cases h
  exact (Config.validate_eq_ok hvalid).2

/-- A format that is asked for shows in the format of the configuration and nowhere else. -/
theorem configure_format (w : Workspace) (r : Request) (f : Report.Format) :
    configure w { r with format := utf8 f.name }
      = (configure w { r with format := [] }).map (·.withFormat f) := by
  have hname : (utf8 f.name).isEmpty = false := by cases f <;> decide
  simp only [configure, hname]
  cases hload : Config.load w r.configPath with
  | error e => rfl
  | ok c =>
    have hformat := Config.isFormat_of_load hload
    simp only [List.isEmpty_nil, if_true, Bool.false_eq_true, if_false]
    have hfold : { c with format := utf8 f.name } = c.withFormat f := rfl
    rw [hfold, Config.override_withFormat]
    cases hoverride : c.override r.overrides with
    | error reason => rfl
    | ok c' =>
      have hformat' : Config.isFormat c'.format = true := by
        rw [Config.format_of_override hoverride, hformat]
      change Except.mapError _ (c'.withFormat f).validate = (Except.mapError _ c'.validate).map _
      rw [Config.validate_withFormat hformat']
      cases c'.validate <;> rfl

/-! ### Plans -/

/-- What a run sets out to do. -/
structure Plan where
  settings : List Setting
  format : Report.Format
  /-- What has been logged about the settings. -/
  log : List Log.Entry
  expansion : Target.Expansion

/-- The plan of a run, if it comes to have one. -/
def plan? (registry : Registry) (w : Workspace) (r : Request) : Option Plan :=
  match configure w r with
  | .error _ => none
  | .ok c =>
    match c.settings registry with
    | (_, .error _) => none
    | (log, .ok settings) =>
      (Report.Format.ofName? c.format).map (⟨settings, ·, log, Target.expand w c r.paths⟩)

/-- Processing the targets of a plan: the files as they are then, and the results. -/
def Plan.processed (p : Plan) (env : Environment) (mode : Mode) : Workspace × List Result :=
  processAll mode p.settings env.stdin env.writeFaults env.workspace p.expansion.targets

/-- The results of the targets of a plan. -/
def Plan.results (p : Plan) (env : Environment) (mode : Mode) : List Result :=
  (p.processed env mode).2

/-- There is no configuration, or its rules cannot be resolved. -/
inductive Unconfigured (registry : Registry) (w : Workspace) (r : Request) : Prop
  | config {e : SetupError} (h : configure w r = .error e)
  | rules {c : Config} {reason : Config.Invalid} (h : configure w r = .ok c)
      (hreason : (c.settings registry).2 = .error reason)

/-- Nothing but the configuration and its rules keeps a run from having a plan. -/
theorem plan?_eq_none_iff : plan? registry w r = none ↔ Unconfigured registry w r := by
  unfold plan?
  cases hconfig : configure w r with
  | error e => simpa using Unconfigured.config hconfig
  | ok c =>
    have hiff : Unconfigured registry w r ↔ ∃ reason, (c.settings registry).2 = .error reason := by
      constructor
      · rintro (h | ⟨h, hreason⟩)
        · cases hconfig.symm.trans h
        · cases hconfig.symm.trans h
          exact ⟨_, hreason⟩
      · exact fun ⟨_, hreason⟩ ↦ .rules hconfig hreason
    obtain ⟨f, hf⟩ := Config.exists_of_isFormat (isFormat_of_configure hconfig)
    rw [hiff]
    dsimp only
    rcases c.settings registry with ⟨log, reason | settings⟩
    · simp
    · simp [hf]

/-- **A run stops, or it processes its plan.** -/
theorem run_eq (registry : Registry) (env : Environment) (r : Request) :
    match plan? registry env.workspace r with
    | none => ∃ log, run registry env r = stopped env r log
    | some p => run registry env r
        = runTargets env r registry p.settings p.format p.log p.expansion := by
  unfold plan? run
  cases hconfig : configure env.workspace r with
  | error e => exact ⟨_, rfl⟩
  | ok c =>
    dsimp only
    obtain ⟨log, reason | settings⟩ := c.settings registry
    · exact ⟨_, rfl⟩
    · dsimp only
      cases Report.Format.ofName? c.format with
      | none => exact ⟨_, rfl⟩
      | some format => rfl

theorem run_of_plan? {p : Plan} (h : plan? registry env.workspace r = some p) :
    run registry env r = runTargets env r registry p.settings p.format p.log p.expansion := by
  simpa only [h] using run_eq registry env r

theorem run_of_unconfigured (h : Unconfigured registry env.workspace r) :
    ∃ log, run registry env r = stopped env r log := by
  simpa only [plan?_eq_none_iff.2 h] using run_eq registry env r

/-- The choice among the formats shows in the plan as the format and in nothing else. -/
theorem plan?_format (registry : Registry) (w : Workspace) (r : Request) (f : Report.Format) :
    plan? registry w { r with format := utf8 f.name }
      = (plan? registry w { r with format := [] }).map ({ · with format := f }) := by
  rw [plan?, plan?, configure_format]
  cases hconfig : configure w { r with format := [] } with
  | error e => rfl
  | ok c =>
    obtain ⟨g, hg⟩ := Config.exists_of_isFormat (isFormat_of_configure hconfig)
    have hsettings : (c.withFormat f).settings registry = c.settings registry := rfl
    have hname : Report.Format.ofName? (c.withFormat f).format = some f := Config.ofName?_name f
    simp only [Except.map, hsettings, hname, hg, Config.ofName?_name]
    obtain ⟨log, reason | settings⟩ := c.settings registry <;> rfl

end Run

end ColonGap
