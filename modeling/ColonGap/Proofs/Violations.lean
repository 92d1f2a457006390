import ColonGap.Proofs.Keys
import ColonGap.Proofs.Ordering
import ColonGap.Proofs.Plan
import Mathlib.Data.List.Sigma

/-!
# What is wrong with a configuration

A configuration is accepted if it is valid (`IsValid`), and else everything that is wrong with it is
reported. What is wrong is said constraint by constraint, without the order in which the constraints
are checked, and along with each violation the text of its entry: the field, with the index of the
element or the name of the rule, the name of the constraint and the value (`Violates`). The report
has one entry for each violation, and its entries ascend (`validate_decides`).

Two facts carry this. The violations that are found are exactly those that there are
(`mem_violations_iff`), which goes part by part: the elements of a list are found by their index,
and the rules by their name. And none is found twice (`nodup_violations`): within a part the index
or the name tells violations apart, and between the parts the kind of the violation.
-/

namespace ColonGap

namespace Config

variable {c : Config} {v : Violation}

/-- A configuration that violates no constraint. -/
structure IsValid (c : Config) : Prop where
  format : c.format = utf8 "text" ∨ c.format = utf8 "json" ∨ c.format = utf8 "sarif"
  concurrency : 0 ≤ c.concurrency
  extensions : c.extensions.getD [] ≠ []
  points : ∀ e ∈ c.extensions.getD [], utf8 "." <+: e
  patterns : ∀ p ∈ c.exclude.getD [], p ≠ []
  names : ∀ name rule, c.ruleList.get? name = some rule → name ≠ []
  severities : ∀ name rule, c.ruleList.get? name = some rule →
    rule.severity ∈ [[], utf8 "error", utf8 "warning", utf8 "off"]

/-- The entry of a violation: where it is, which constraint is violated, and by what. -/
def entryText (field : Bytes) (constraint : String) (value : Bytes) : Bytes :=
  field ++ utf8 ": failed \"" ++ utf8 constraint ++ utf8 "\" (value " ++ value ++ utf8 ")"

/-- The violations of a configuration with their entries: of the lists one for each element at
fault, and of the rules one for each name and each severity. -/
inductive Violates (c : Config) : Violation → Bytes → Prop
  | format (h : c.format ∉ [utf8 "text", utf8 "json", utf8 "sarif"]) :
    Violates c (.unknownFormat c.format)
      (entryText (utf8 "Config.Lint.Format") "oneof" c.format)
  | concurrency (h : c.concurrency < 0) :
    Violates c (.negativeConcurrency c.concurrency)
      (entryText (utf8 "Config.Lint.Concurrency") "gte" (signedDecimal c.concurrency))
  | noExtensions (h : c.extensions.getD [] = []) :
    Violates c .noExtensions (entryText (utf8 "Config.Lint.Extensions") "min" (utf8 "[]"))
  | extension {i : Nat} {e : Bytes} (h : (c.extensions.getD [])[i]? = some e)
    (hpoint : ¬ utf8 "." <+: e) :
    Violates c (.extensionWithoutPoint i e)
      (entryText (utf8 "Config.Lint.Extensions[" ++ decimal i ++ utf8 "]") "startswith" e)
  | pattern {i : Nat} (h : (c.exclude.getD [])[i]? = some []) :
    Violates c (.emptyPattern i)
      (entryText (utf8 "Config.Lint.Exclude[" ++ decimal i ++ utf8 "]") "required" [])
  | ruleName {rule : RuleConfig} (h : c.ruleList.get? [] = some rule) :
    Violates c .emptyRuleName (entryText (utf8 "Config.Lint.Rules[]") "required" [])
  | severity {name : Bytes} {rule : RuleConfig} (h : c.ruleList.get? name = some rule)
    (hsev : rule.severity ∉ [[], utf8 "error", utf8 "warning", utf8 "off"]) :
    Violates c (.unknownSeverity name rule.severity)
      (entryText (utf8 "Config.Lint.Rules[" ++ name ++ utf8 "].Severity") "oneof" rule.severity)

/-- A configuration is valid if it violates nothing. -/
theorem isValid_iff : IsValid c ↔ ∀ v text, ¬ Violates c v text := by
  constructor
  · intro h v text hv
    cases hv with
    | format hformat => exact hformat (by simpa using h.format)
    | concurrency hlt => exact absurd h.concurrency (Int.not_le.2 hlt)
    | noExtensions hnil => exact h.extensions hnil
    | extension hget hpoint => exact hpoint (h.points _ (List.mem_of_getElem? hget))
    | pattern hget => exact h.patterns _ (List.mem_of_getElem? hget) rfl
    | ruleName hget => exact h.names _ _ hget rfl
    | severity hget hsev => exact hsev (h.severities _ _ hget)
  · intro h
    constructor
    case format =>
      by_contra hformat
      exact h _ _ (.format (by simpa using hformat))
    case concurrency => exact Int.not_lt.1 fun hlt ↦ h _ _ (.concurrency hlt)
    case extensions => exact fun hnil ↦ h _ _ (.noExtensions hnil)
    case points =>
      intro e he
      obtain ⟨i, hi⟩ := List.mem_iff_getElem?.1 he
      by_contra hpoint
      exact h _ _ (.extension hi hpoint)
    case patterns =>
      rintro p hp rfl
      obtain ⟨i, hi⟩ := List.mem_iff_getElem?.1 hp
      exact h _ _ (.pattern hi)
    case names =>
      rintro name rule hget rfl
      exact h _ _ (.ruleName hget)
    case severities =>
      intro name rule hget
      by_contra hsev
      exact h _ _ (.severity hget hsev)

/-! ### What an entry says -/

/-- The names of constraints are quoted as they are. -/
theorem quoted_constraint (v : Violation) :
    quoted (utf8 v.constraint) = utf8 "\"" ++ utf8 v.constraint ++ utf8 "\"" := by
  cases v <;> (dsimp only [Violation.constraint]; decide +kernel)

/-- The wording of a violation is the entry of its field, its constraint and its value. -/
theorem message_eq_entryText (v : Violation) :
    v.message = entryText v.field v.constraint v.value := by
  have hopen : utf8 ": failed " ++ utf8 "\"" = utf8 ": failed \"" := by decide +kernel
  have hclose : utf8 "\"" ++ utf8 " (value " = utf8 "\" (value " := by decide +kernel
  simp only [Violation.message, entryText, quoted_constraint, ← hopen, ← hclose, List.append_assoc]

/-- A violation has one entry only, its wording. -/
theorem Violates.text_eq {text : Bytes} (h : Violates c v text) : text = v.message := by
  rw [message_eq_entryText]
  cases h <;> rfl

/-! ### Each violation is found -/

/-- The formats that exist are these three. -/
theorem isFormat_iff {s : Bytes} :
    isFormat s = true ↔ s ∈ [utf8 "text", utf8 "json", utf8 "sarif"] := by
  constructor
  · intro h
    obtain ⟨f, rfl⟩ := exists_of_isFormat h
    cases f <;> decide
  · intro h
    simp only [List.mem_cons, List.not_mem_nil, or_false] at h
    rcases h with rfl | rfl | rfl <;> decide

theorem isSeverity_iff {s : Severity} :
    isSeverity s = true ↔ s ∈ [[], utf8 "error", utf8 "warning", utf8 "off"] := by
  simp [isSeverity, Severity.error, Severity.warning, Severity.off, or_assoc]

/-- An extension starts with a point exactly if its first byte is one. -/
theorem head?_eq_point_iff {e : Bytes} : e.head? = some 46 ↔ utf8 "." <+: e := by
  have hpoint : utf8 "." = [46] := by decide
  rw [hpoint]
  cases e with
  | nil => simp
  | cons b e => simp [eq_comm]

theorem extensionViolations_cons (first : Bytes) (rest : List Bytes) :
    extensionViolations (first :: rest)
      = (first :: rest).zipIdx.filterMap fun (e, i) ↦
        if e.head? == some 46 then none else some (.extensionWithoutPoint i e) :=
  rfl

/-- The extensions are missing, or one of them has no point. -/
theorem mem_extensionViolations {extensions : List Bytes} :
    v ∈ extensionViolations extensions ↔
      (extensions = [] ∧ v = .noExtensions) ∨
        ∃ i e, extensions[i]? = some e ∧ ¬ utf8 "." <+: e ∧ v = .extensionWithoutPoint i e := by
  cases extensions with
  | nil => simp [extensionViolations]
  | cons first rest =>
    rw [extensionViolations_cons, List.mem_filterMap]
    simp only [Prod.exists, List.mem_zipIdx_iff_getElem?, ← head?_eq_point_iff, beq_iff_eq]
    constructor
    · rintro ⟨e, i, hget, h⟩
      split at h
      case isTrue => cases h
      case isFalse hpoint =>
        obtain rfl := Option.some.inj h
        exact .inr ⟨i, e, hget, hpoint, rfl⟩
    · rintro (⟨hnil, -⟩ | ⟨i, e, hget, hpoint, rfl⟩)
      · cases hnil
      · exact ⟨e, i, hget, if_neg hpoint⟩

/-- A pattern that excludes files is empty. -/
theorem mem_patternViolations {patterns : List Bytes} :
    v ∈ patternViolations patterns ↔ ∃ i, patterns[i]? = some [] ∧ v = .emptyPattern i := by
  rw [patternViolations, List.mem_filterMap]
  simp only [Prod.exists, List.mem_zipIdx_iff_getElem?, List.isEmpty_iff]
  constructor
  · rintro ⟨p, i, hget, h⟩
    split at h
    case isTrue hempty =>
      obtain rfl := Option.some.inj h
      exact ⟨i, hempty ▸ hget, rfl⟩
    case isFalse => cases h
  · rintro ⟨i, hget, rfl⟩
    exact ⟨[], i, hget, if_pos rfl⟩

/-- A rule has no name, or a severity that does not exist. -/
theorem mem_ruleViolations {rules : Entries RuleConfig} :
    v ∈ ruleViolations rules ↔
      (∃ rule, ([], rule) ∈ rules ∧ v = .emptyRuleName) ∨
        ∃ name rule, (name, rule) ∈ rules ∧ isSeverity rule.severity = false ∧
          v = .unknownSeverity name rule.severity := by
  simp only [ruleViolations, List.mem_flatMap, List.mem_append, Prod.exists]
  constructor
  · rintro ⟨name, rule, hmem, hname | hsev⟩
    · split at hname
      case isTrue hempty =>
        obtain rfl := List.isEmpty_iff.1 hempty
        exact .inl ⟨rule, hmem, List.mem_singleton.1 hname⟩
      case isFalse => cases hname
    · split at hsev
      case isTrue => cases hsev
      case isFalse hbad =>
        exact .inr ⟨name, rule, hmem, Bool.not_eq_true _ ▸ hbad, List.mem_singleton.1 hsev⟩
  · rintro (⟨rule, hmem, rfl⟩ | ⟨name, rule, hmem, hbad, rfl⟩)
    · exact ⟨[], rule, hmem, .inl (List.mem_singleton_self _)⟩
    · exact ⟨name, rule, hmem, .inr (by simp [hbad])⟩

/-- **What is found is what is wrong.** -/
theorem mem_violations_iff : v ∈ c.violations ↔ ∃ text, Violates c v text := by
  simp only [violations, violationsAlong, List.mem_append, mem_extensionViolations,
    mem_patternViolations, mem_ruleViolations, ← KeyedList.get?_eq_some_iff]
  constructor
  · rintro ((((h | h) | ⟨hnil, rfl⟩ | ⟨i, e, hget, hpoint, rfl⟩) | ⟨i, hget, rfl⟩) |
      ⟨rule, hget, rfl⟩ | ⟨name, rule, hget, hsev, rfl⟩)
    · split at h
      case isTrue => cases h
      case isFalse hformat =>
        obtain rfl := List.mem_singleton.1 h
        exact ⟨_, .format (fun hin ↦ hformat (isFormat_iff.2 hin))⟩
    · split at h
      case isTrue hlt =>
        obtain rfl := List.mem_singleton.1 h
        exact ⟨_, .concurrency hlt⟩
      case isFalse => cases h
    · exact ⟨_, .noExtensions hnil⟩
    · exact ⟨_, .extension hget hpoint⟩
    · exact ⟨_, .pattern hget⟩
    · exact ⟨_, .ruleName hget⟩
    · exact ⟨_, .severity hget fun hin ↦ by simp [isSeverity_iff.2 hin] at hsev⟩
  · rintro ⟨text, h⟩
    cases h with
    | format hformat => simp [isFormat_iff.not.2 hformat]
    | concurrency hlt => simp [hlt]
    | noExtensions hnil => simp [hnil]
    | extension hget hpoint => simp [hget, hpoint]
    | pattern hget => simp [hget]
    | ruleName hget => simp [hget]
    | severity hget hsev =>
      have hbad := Bool.eq_false_iff.2 (isSeverity_iff.not.2 hsev)
      exact .inr (.inr ⟨_, _, hget, hbad, rfl⟩)

/-! ### No violation is found twice -/

theorem nodup_zipIdx {α : Type} (items : List α) : items.zipIdx.Nodup :=
  (List.nodup_zipIdx_map_snd items).of_map _

/-- No violation among the extensions is found twice. -/
theorem nodup_extensionViolations (extensions : List Bytes) :
    (extensionViolations extensions).Nodup := by
  cases extensions with
  | nil => exact List.nodup_singleton _
  | cons first rest =>
    rw [extensionViolations_cons]
    refine (nodup_zipIdx (first :: rest)).filterMap ?_
    rintro ⟨e, i⟩ ⟨e', i'⟩ v hv hv'
    dsimp only at hv hv'
    split at hv
    · cases hv
    · split at hv'
      · cases hv'
      · cases hv
        cases hv'
        rfl

/-- No violation among the patterns is found twice. -/
theorem nodup_patternViolations (patterns : List Bytes) : (patternViolations patterns).Nodup := by
  refine (nodup_zipIdx patterns).filterMap ?_
  rintro ⟨p, i⟩ ⟨p', i'⟩ v hv hv'
  dsimp only at hv hv'
  split at hv
  case isTrue hp =>
    split at hv'
    case isTrue hp' =>
      obtain rfl := List.isEmpty_iff.1 hp
      obtain rfl := List.isEmpty_iff.1 hp'
      cases hv
      cases hv'
      rfl
    case isFalse => cases hv'
  case isFalse => cases hv

theorem ruleViolations_cons (entry : Bytes × RuleConfig) (rules : Entries RuleConfig) :
    ruleViolations (entry :: rules) = ruleViolations [entry] ++ ruleViolations rules := by
  simp [ruleViolations]

/-- No violation among the rules is found twice, since no two rules have one name. -/
theorem nodup_ruleViolations {rules : Entries RuleConfig} (h : rules.Ascending) :
    (ruleViolations rules).Nodup := by
  induction rules with
  | nil => exact .nil
  | cons entry rules ih =>
    obtain ⟨name, rule⟩ := entry
    obtain ⟨hname, hrules⟩ := Entries.ascending_cons.1 h
    have hfresh : ∀ rule', (name, rule') ∉ rules := fun rule' hmem ↦
      List.lt_irrefl name (hname name (List.mem_map_of_mem hmem))
    rw [ruleViolations_cons, List.nodup_append]
    refine ⟨?_, ih hrules, ?_⟩
    · rw [ruleViolations, List.flatMap_singleton]
      dsimp only
      split <;> split <;> simp
    · -- The name tells the violations of this rule from those of the others.
      rintro v hv _ hv' rfl
      rw [mem_ruleViolations] at hv hv'
      simp only [List.mem_singleton, Prod.mk.injEq] at hv
      rcases hv with ⟨_, ⟨rfl, -⟩, rfl⟩ | ⟨_, _, ⟨rfl, -⟩, -, rfl⟩
      · obtain ⟨rule', hmem, -⟩ | ⟨_, _, -, -, heq⟩ := hv'
        · exact hfresh rule' hmem
        · cases heq
      · obtain ⟨_, -, heq⟩ | ⟨_, rule', hmem, -, heq⟩ := hv'
        · cases heq
        · obtain ⟨rfl, -⟩ := Violation.unknownSeverity.inj heq
          exact hfresh rule' hmem

/-- **Nothing is reported twice.** -/
theorem nodup_violations (c : Config) : c.violations.Nodup := by
  have hformat : (if isFormat c.format then [] else [Violation.unknownFormat c.format]).Nodup := by
    split <;> simp
  have hconcurrency :
      (if c.concurrency < 0 then [Violation.negativeConcurrency c.concurrency] else []).Nodup := by
    split <;> simp
  simp only [violations, violationsAlong, List.nodup_append, List.mem_append,
    mem_extensionViolations, mem_patternViolations, mem_ruleViolations]
  refine ⟨⟨⟨⟨hformat, hconcurrency, ?_⟩, nodup_extensionViolations _, ?_⟩,
    nodup_patternViolations _, ?_⟩, nodup_ruleViolations c.ruleList.ascending, ?_⟩
  -- Violations of different parts are of different kinds.
  all_goals grind

/-! ### The report -/

theorem isValid_iff_violations_eq_nil : IsValid c ↔ c.violations = [] := by
  rw [isValid_iff, List.eq_nil_iff_forall_not_mem]
  simp only [mem_violations_iff, not_exists]

/-- A configuration is accepted exactly if it is valid. -/
theorem validate_eq_ok_iff : c.validate = .ok c ↔ IsValid c := by
  rw [isValid_iff_violations_eq_nil, validate]
  split
  case h_1 hnone => simp [hnone]
  case h_2 hsome => simpa using hsome

/-- A configuration with which something is wrong is refused with all of that. -/
theorem validate_eq_error (h : c.violations ≠ []) :
    c.validate = .error (.violations c.violations) := by
  unfold validate
  split
  case h_1 hnil => exact absurd hnil h
  case h_2 => rfl

/-- The wording of violations does not depend on the order in which they are found. -/
theorem violationMessage_of_perm {items others : List Violation} (h : items.Perm others) :
    violationMessage items = violationMessage others := by
  rw [violationMessage, violationMessage, Bytes.sortBy_eq_of_perm (h.map _)]

/-- Going through the rules in another order finds the same violations. -/
theorem violationsAlong_of_perm {rules others : Entries RuleConfig} (h : rules.Perm others) :
    (c.violationsAlong rules).Perm (c.violationsAlong others) :=
  (List.Perm.refl _).append (h.flatMap_right _)

/-- **What validation decides.** A configuration is accepted, as it is, if and only if it is valid.
Otherwise the error has one entry for each violation and no other entry, and the entries ascend; so
the order in which the rules are gone through makes no difference to it. -/
theorem validate_decides (c : Config) :
    (c.validate = .ok c ↔ IsValid c) ∧
      (¬ IsValid c → ∃ (reason : Invalid) (entries : List (Violation × Bytes)) (texts : List Bytes),
        c.validate = .error reason ∧
        (entries.map (·.1)).Nodup ∧
        (∀ v text, (v, text) ∈ entries ↔ Violates c v text) ∧
        texts.Perm (entries.map (·.2)) ∧ texts.Pairwise (· ≤ ·) ∧
        reason.message = utf8 "invalid config: " ++ Bytes.join (utf8 "; ") texts ∧
        ∀ order : Entries RuleConfig, order.Perm c.ruleList.entries →
          (Invalid.violations (c.violationsAlong order)).message = reason.message) := by
  refine ⟨validate_eq_ok_iff, fun hinvalid ↦ ?_⟩
  have hsome : c.violations ≠ [] := fun hnil ↦ hinvalid (isValid_iff_violations_eq_nil.2 hnil)
  refine ⟨.violations c.violations, c.violations.map fun v ↦ (v, v.message),
    sortBy Bytes.le (c.violations.map Violation.message), validate_eq_error hsome, ?_,
    fun v text ↦ ?_, ?_, Bytes.pairwise_le_sortBy _, rfl, fun order horder ↦ ?_⟩
  · simpa [List.map_map, Function.comp_def] using nodup_violations c
  · constructor
    · intro hmem
      obtain ⟨_, hv, heq⟩ := List.mem_map.1 hmem
      obtain ⟨rfl, rfl⟩ := Prod.mk.inj heq
      obtain ⟨text, htext⟩ := mem_violations_iff.1 hv
      exact htext.text_eq ▸ htext
    · intro htext
      rw [htext.text_eq]
      exact List.mem_map_of_mem (mem_violations_iff.2 ⟨text, htext⟩)
  · rw [List.map_map]
    exact sortBy_perm _ _
  · exact congrArg (utf8 "invalid config: " ++ ·)
      (violationMessage_of_perm (violationsAlong_of_perm horder))

/-- A configuration that is wrong in every field that is checked, and twice in two of them. -/
def everythingWrong : Config where
  format := []
  strictOptions := false
  concurrency := -1
  extensions := some [utf8 "js", utf8 ".mjs", []]
  exclude := some [[], utf8 "lib"]
  rules := some (.ofList [([], ⟨utf8 "fatal", .null⟩), (utf8 "r", ⟨Severity.off, .null⟩)])

/-- All seven entries, with the severity of the rule without a name before its name. -/
theorem validate_decides_everythingWrong :
    ¬ IsValid everythingWrong ∧
      Violates everythingWrong (.extensionWithoutPoint 2 [])
        (utf8 "Config.Lint.Extensions[2]: failed \"startswith\" (value )") ∧
      ∃ reason, everythingWrong.validate = .error reason ∧
        reason.message = utf8 "invalid config: " ++ Bytes.join (utf8 "; ")
          [utf8 "Config.Lint.Concurrency: failed \"gte\" (value -1)",
            utf8 "Config.Lint.Exclude[0]: failed \"required\" (value )",
            utf8 "Config.Lint.Extensions[0]: failed \"startswith\" (value js)",
            utf8 "Config.Lint.Extensions[2]: failed \"startswith\" (value )",
            utf8 "Config.Lint.Format: failed \"oneof\" (value )",
            utf8 "Config.Lint.Rules[].Severity: failed \"oneof\" (value fatal)",
            utf8 "Config.Lint.Rules[]: failed \"required\" (value )"] := by
  have hinvalid : ¬ IsValid everythingWrong := fun h ↦ absurd h.concurrency (by decide)
  obtain ⟨reason, -, -, hvalidate, -, -, -, -, -, horder⟩ :=
    (validate_decides everythingWrong).2 hinvalid
  have hviolates : Violates everythingWrong (.extensionWithoutPoint 2 [])
      (utf8 "Config.Lint.Extensions[2]: failed \"startswith\" (value )") := by
    have htext : entryText (utf8 "Config.Lint.Extensions[" ++ decimal 2 ++ utf8 "]") "startswith" []
        = utf8 "Config.Lint.Extensions[2]: failed \"startswith\" (value )" := by decide +kernel
    exact htext ▸ .extension (by rfl) (by decide)
  refine ⟨hinvalid, hviolates, reason, hvalidate, ?_⟩
  rw [← horder _ (.refl _)]
  decide +kernel

end Config

end ColonGap
