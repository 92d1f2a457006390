import ColonGap.Lint
import ColonGap.Proofs.Ordering
import Mathlib.Data.List.Forall2
import Mathlib.Data.List.Nodup

/-!
# Linting merges what the rules report

The failures of a file are those that the enabled rules report, stamped and in order. What that
comes to is said without the settings' order and without sorting (`IsMerge`):

* every failure is of a rule that is enabled;
* the failures of one rule at one offset are what the rule reports there, each of them stamped, in
  the order in which the rule reports them;
* the failures ascend by their offset, and at one offset by the name of their rule.

There is one list like that (`IsMerge.unique`), because failures that are tied are of one rule and
at one offset. If no two rules have one name, linting gives it (`isMerge_run`), so it gives the same
for every order of the settings.
-/

namespace ColonGap

namespace Lint

/-! ### The order of failures -/

/-- Failures are ordered by their offset, and at one offset by the name of their rule. -/
theorem precedes_iff {f g : Failure} : precedes f g = true ↔
    f.start < g.start ∨ (f.start = g.start ∧ f.rule ≤ g.rule) := by
  rw [precedes]
  split
  case isTrue heq =>
    rw [beq_iff_eq] at heq
    rw [Bytes.le_iff]
    simp [heq]
  case isFalse hne =>
    rw [beq_iff_eq] at hne
    simp [hne]

theorem precedes_refl (f : Failure) : precedes f f = true :=
  precedes_iff.2 (.inr ⟨rfl, List.le_refl _⟩)

theorem precedes_total (f g : Failure) : precedes f g = true ∨ precedes g f = true := by
  rw [precedes_iff, precedes_iff]
  rcases Int.lt_trichotomy f.start g.start with hlt | heq | hgt
  · exact .inl (.inl hlt)
  · exact (List.le_total f.rule g.rule).imp (fun h ↦ .inr ⟨heq, h⟩) fun h ↦ .inr ⟨heq.symm, h⟩
  · exact .inr (.inl hgt)

/-- The order of failures is transitive. -/
theorem precedes_trans (f g h : Failure) (hfg : precedes f g = true) (hgh : precedes g h = true) :
    precedes f h = true := by
  rw [precedes_iff] at hfg hgh ⊢
  obtain hfg | ⟨hfg, hle⟩ := hfg <;> obtain hgh | ⟨hgh, hle'⟩ := hgh
  · exact .inl (Int.lt_trans hfg hgh)
  · exact .inl (hgh ▸ hfg)
  · exact .inl (hfg ▸ hgh)
  · exact .inr ⟨hfg.trans hgh, List.le_trans hle hle'⟩

/-- Failures are tied if they are of one rule and at one offset. -/
theorem tied_precedes (f g : Failure) :
    tied precedes f g = decide (g.rule = f.rule ∧ g.start = f.start) := by
  rw [Bool.eq_iff_iff, tied, Bool.and_eq_true, precedes_iff, precedes_iff, decide_eq_true_eq]
  constructor
  · rintro ⟨hlt | ⟨heq, hle⟩, hlt' | ⟨heq', hle'⟩⟩
    · omega
    · omega
    · omega
    · exact ⟨List.le_antisymm hle' hle, heq.symm⟩
  · rintro ⟨hrule, hstart⟩
    rw [hrule, hstart]
    exact ⟨.inr ⟨rfl, List.le_refl _⟩, .inr ⟨rfl, List.le_refl _⟩⟩

/-! ### Stamping -/

/-- What a failure `f` becomes when a rule reports it: it is stamped with the rule, the severity,
the file and its positions, and stays as it is otherwise. -/
structure Stamped (source : SourceFile) (setting : Setting) (f g : Failure) : Prop where
  rule : g.rule = setting.rule.name
  severity : g.severity = if setting.severity = [] then Severity.error else setting.severity
  file : g.file = source.name
  start : g.start = f.start
  stop : g.stop = f.stop
  position : g.position = source.position f.start
  endPosition : g.endPosition = source.position f.stop
  message : g.message = f.message
  fix : g.fix = f.fix

/-- A stamped failure is the one that stamping gives. -/
theorem stamped_iff {source : SourceFile} {setting : Setting} {f g : Failure} :
    Stamped source setting f g ↔ stamp source setting f = g := by
  constructor
  · intro h
    obtain ⟨rule, severity, file, start, stop, position, endPosition, message, fix⟩ := g
    obtain ⟨rfl, rfl, rfl, rfl, rfl, rfl, rfl, rfl, rfl⟩ := h
    simp only [stamp, List.isEmpty_iff]
  · rintro rfl
    exact ⟨rfl, by simp only [stamp, List.isEmpty_iff], rfl, rfl, rfl, rfl, rfl, rfl, rfl⟩

/-- Stamped failures are those that stamping gives, in the same order. -/
theorem forall₂_stamped_iff {source : SourceFile} {setting : Setting} {fs gs : List Failure} :
    List.Forall₂ (Stamped source setting) fs gs ↔ fs.map (stamp source setting) = gs := by
  have hstamped : Stamped source setting = fun f g ↦ stamp source setting f = g :=
    funext₂ fun _ _ ↦ propext stamped_iff
  rw [hstamped, ← List.forall₂_eq_eq_eq, List.forall₂_map_left_iff]

/-! ### Merging -/

/-- The failures are those of the rules that are enabled, in order. -/
structure IsMerge (file : SourceFile) (settings : List Setting) (failures : List Failure) :
    Prop where
  /-- Every failure is of a rule that is enabled. -/
  enabled : ∀ g ∈ failures, ∃ s ∈ settings, g.rule = s.rule.name
  /-- What a rule reports at an offset is there once, stamped and in the order of the rule. -/
  reported : ∀ s ∈ settings, ∀ offset : Int,
    List.Forall₂ (Stamped file s)
      ((s.rule.check file s.option).filter fun f ↦ f.start = offset)
      (failures.filter fun g ↦ g.rule = s.rule.name ∧ g.start = offset)
  /-- Failures are in the order of their offsets, then of their rules. -/
  ascending : failures.Pairwise fun f g ↦
    f.start < g.start ∨ (f.start = g.start ∧ f.rule ≤ g.rule)

section IsMerge

variable {file : SourceFile} {settings others : List Setting} {failures failures' : List Failure}

/-- The order of the settings does not matter to what they merge to. -/
theorem IsMerge.of_perm (h : IsMerge file settings failures) (hperm : settings.Perm others) :
    IsMerge file others failures where
  enabled g hg := by
    obtain ⟨s, hs, hrule⟩ := h.enabled g hg
    exact ⟨s, hperm.mem_iff.1 hs, hrule⟩
  reported s hs := h.reported s (hperm.mem_iff.2 hs)
  ascending := h.ascending

/-- In two merges the failures that are tied with one stand in the same order. -/
theorem IsMerge.filter_tied (h : IsMerge file settings failures)
    (h' : IsMerge file settings failures') (f : Failure) :
    failures.filter (tied precedes f) = failures'.filter (tied precedes f) := by
  have htied : tied precedes f = fun g ↦ decide (g.rule = f.rule ∧ g.start = f.start) :=
    funext (tied_precedes f)
  rw [htied]
  by_cases hrule : ∃ s ∈ settings, s.rule.name = f.rule
  · -- Both are what the rule reports at the offset.
    obtain ⟨s, hs, hname⟩ := hrule
    have hfilter := forall₂_stamped_iff.1 (h.reported s hs f.start)
    have hfilter' := forall₂_stamped_iff.1 (h'.reported s hs f.start)
    rw [hname] at hfilter hfilter'
    rw [← hfilter, hfilter']
  · have hnone : ∀ {fs}, IsMerge file settings fs →
        fs.filter (fun g ↦ g.rule = f.rule ∧ g.start = f.start) = [] := fun hfs ↦
      List.filter_eq_nil_iff.2 fun g hg ↦ by
        obtain ⟨s, hs, hname⟩ := hfs.enabled g hg
        simp only [decide_eq_true_eq]
        exact fun heq ↦ hrule ⟨s, hs, hname.symm.trans heq.1⟩
    rw [hnone h, hnone h']

/-- **There is one merge.** -/
theorem IsMerge.unique (h : IsMerge file settings failures)
    (h' : IsMerge file settings failures') : failures = failures' :=
  eq_of_filter_tied precedes_refl (h.ascending.imp precedes_iff.2) (h'.ascending.imp precedes_iff.2)
    (h.filter_tied h')

/-- Of the reports of all rules, those with one rule's name are that rule's. -/
theorem filter_reports (hnames : (settings.map (·.rule.name)).Nodup) {s : Setting}
    (hs : s ∈ settings) (offset : Int) :
    (settings.flatMap fun s ↦ (s.rule.check file s.option).map (stamp file s)).filter
        (fun g ↦ g.rule = s.rule.name ∧ g.start = offset)
      = ((s.rule.check file s.option).filter fun f ↦ f.start = offset).map (stamp file s) := by
  have hother : ∀ {ts : List Setting}, (∀ t ∈ ts, t.rule.name ≠ s.rule.name) →
      (ts.flatMap fun t ↦ (t.rule.check file t.option).map (stamp file t)).filter
        (fun g ↦ g.rule = s.rule.name ∧ g.start = offset) = [] := fun hts ↦
    List.filter_eq_nil_iff.2 fun g hg ↦ by
      obtain ⟨t, ht, hg⟩ := List.mem_flatMap.1 hg
      obtain ⟨f, -, rfl⟩ := List.mem_map.1 hg
      simp only [decide_eq_true_eq]
      exact fun heq ↦ hts t ht heq.1
  obtain ⟨before, after, rfl⟩ := List.append_of_mem hs
  rw [List.map_append, List.map_cons, List.nodup_append, List.nodup_cons] at hnames
  obtain ⟨-, ⟨hafter, -⟩, hbefore⟩ := hnames
  have hown : ((s.rule.check file s.option).map (stamp file s)).filter
      (fun g ↦ g.rule = s.rule.name ∧ g.start = offset)
        = ((s.rule.check file s.option).filter fun f ↦ f.start = offset).map (stamp file s) := by
    rw [List.filter_map]
    congr 1
    exact List.filter_congr fun f _ ↦ by simp [stamp]
  rw [List.flatMap_append, List.flatMap_cons, List.filter_append, List.filter_append, hown,
    hother fun t ht ↦ hbefore _ (List.mem_map_of_mem ht) _ List.mem_cons_self,
    hother fun t ht heq ↦ hafter (heq ▸ List.mem_map_of_mem ht), List.append_nil,
    List.nil_append]

/-- Linting merges what rules of different names report. -/
theorem isMerge_run (hnames : (settings.map (·.rule.name)).Nodup) :
    IsMerge file settings (run file settings) where
  enabled g hg := by
    obtain ⟨s, hs, hg⟩ := List.mem_flatMap.1 ((mem_sortBy _).1 hg)
    obtain ⟨f, -, rfl⟩ := List.mem_map.1 hg
    exact ⟨s, hs, rfl⟩
  reported s hs offset := by
    rw [forall₂_stamped_iff, ← filter_reports hnames hs offset, run, filter_sortBy]
    intro f g hf hg
    simp only [decide_eq_true_eq] at hf hg
    rw [precedes_iff, hf.1, hf.2, hg.1, hg.2]
    exact .inr ⟨rfl, List.le_refl _⟩
  ascending := (pairwise_sortBy precedes_total precedes_trans _).imp precedes_iff.1

/-- **Linting is a merge, and there is one.** For rules of different names, linting gives what the
rules report, each failure once, stamped and in order; no other list is that; and so the order of
the settings does not matter. -/
theorem run_merges (hnames : (settings.map (·.rule.name)).Nodup) :
    IsMerge file settings (run file settings) ∧
      (∀ failures, IsMerge file settings failures → failures = run file settings) ∧
      ∀ others, others.Perm settings → run file others = run file settings := by
  have hmerge : IsMerge file settings (run file settings) := isMerge_run hnames
  refine ⟨hmerge, fun failures h ↦ h.unique hmerge, fun others hperm ↦ ?_⟩
  have hnames' : (others.map (·.rule.name)).Nodup := (hperm.map _).nodup_iff.2 hnames
  exact ((isMerge_run hnames').of_perm hperm).unique hmerge

end IsMerge

/-- Two rules that report at one offset, one of them twice, with a severity that is not given. -/
theorem run_merges_tie :
    let report := fun start message ↦ Failure.ofRange start start (utf8 message) none
    let rule : Bytes → List Failure → Rule := fun name failures ↦
      { name, description := [], options := none, rationale := none, fixable := false
        optionError := fun _ ↦ none, check := fun _ _ ↦ failures }
    let file := SourceFile.ofSource (utf8 "a.js") (utf8 "x = 1\ny = 2\n")
    let last : Setting := ⟨rule (utf8 "z") [report 8 "late", report 8 "later"], [], .null⟩
    let first : Setting :=
      ⟨rule (utf8 "a") [report 8 "tie", report 0 "early"], Severity.warning, .null⟩
    ([last, first].map (·.rule.name)).Nodup ∧
      IsMerge file [last, first] (run file [last, first]) ∧
      run file [first, last] = run file [last, first] ∧
      (run file [first, last]).map (fun f ↦ (f.message, f.severity, f.position))
        = [(utf8 "early", Severity.warning, ⟨1, 1⟩), (utf8 "tie", Severity.warning, ⟨2, 3⟩),
          (utf8 "late", Severity.error, ⟨2, 3⟩), (utf8 "later", Severity.error, ⟨2, 3⟩)] := by
  intro report rule file last first
  have hnames : ([last, first].map (·.rule.name)).Nodup := by decide
  obtain ⟨hmerge, -, hperm⟩ := @run_merges file _ hnames
  exact ⟨hnames, hmerge, hperm _ (.swap _ _ _), by decide +kernel⟩

end Lint

end ColonGap
