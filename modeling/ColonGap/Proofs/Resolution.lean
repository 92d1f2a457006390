import ColonGap.Config.Settings
import ColonGap.Proofs.Keys
import ColonGap.Proofs.Overrides
import ColonGap.Proofs.Plan

/-!
# Which rules run

The settings of a run are the rules that are on, each along with the registered rule of its name, in
the order of the names (`settings_resolve`). There are none if a rule that is on cannot be used: no
rule is registered under its name, or options are strict and the rule does not know its option
(`Unusable`).

Rules are resolved one after the other up to the first that cannot be used (`settingsOf_cases`).
What becomes of one of them depends on strictness only in that it may be unusable (`setting_cases`),
so where strict options are accepted, others are no different.

The built-in rule does not know exactly those options with which it never finds anything: it checks
nothing then, and every option that it knows is violated by one of two short scripts
(`Rule.BeforeColon.disables_iff`).
-/

namespace ColonGap

/-! ### The built-in rule -/

/-- With the option, the rule finds nothing in any script. -/
def Rule.Disables (rule : Rule) (option : OptionValue) : Prop :=
  ∀ name source file, SourceFile.parse name source = .ok file → rule.check file option = []

/-- An option that does not disable the rule is the name of a policy. -/
theorem Policy.exists_of_ofOption_ne {option : OptionValue}
    (h : Policy.ofOption option ≠ .disabled) :
    ∃ p ∈ Policy.selectable, option = .text (utf8 p.name) := by
  cases option with
  | text s =>
    rw [Policy.ofOption] at h
    cases hfind : Policy.selectable.find? fun p ↦ utf8 p.name == s with
    | none => simp [hfind] at h
    | some p =>
      have hname : utf8 p.name = s := by simpa using List.find?_some hfind
      exact ⟨p, List.mem_of_find?_eq_some hfind, by rw [hname]⟩
  | _ => exact absurd rfl h

namespace Rule.BeforeColon

variable {option : OptionValue}

theorem optionError_eq_none_iff :
    optionError option = none ↔ Policy.ofOption option ≠ .disabled := by
  simp [optionError]

/-- Without a policy nothing is checked. -/
theorem check_of_disabled (h : Policy.ofOption option = .disabled) (file : SourceFile) :
    check file option = [] := by
  rw [check, h]

/-- Each policy finds fault with a colon behind a space or with one behind no space. -/
theorem exists_check_ne_nil {p : Policy} (hp : p ∈ Policy.selectable) :
    ∃ source file, SourceFile.parse (utf8 "a.js") source = .ok file ∧
      check file (.text (utf8 p.name)) ≠ [] := by
  have hfound (p : Policy) (source : Bytes)
      (h : (SourceFile.parse (utf8 "a.js") source).toOption.any
        (fun file ↦ !(check file (.text (utf8 p.name))).isEmpty) = true) :
      ∃ source file, SourceFile.parse (utf8 "a.js") source = .ok file ∧
        check file (.text (utf8 p.name)) ≠ [] := by
    obtain ⟨file, hfile, hfound⟩ := (Option.any_eq_true _ _).1 h
    exact ⟨source, file, eq_ok_of_toOption hfile, by simpa using hfound⟩
  simp only [Policy.selectable, List.mem_cons, List.not_mem_nil, or_false] at hp
  rcases hp with rfl | rfl | rfl
  · exact hfound .noSpace (utf8 "x = \x7ba : 1\x7d") (by decide +kernel)
  · exact hfound .oneSpace (utf8 "x = \x7ba: 1\x7d") (by decide +kernel)
  · exact hfound .someSpace (utf8 "x = \x7ba: 1\x7d") (by decide +kernel)

/-- **The options that the rule does not know are those that disable it.** -/
theorem disables_iff :
    rule.Disables option ↔ ∃ message, rule.optionError option = some message := by
  rw [← Option.isSome_iff_exists, ← Option.ne_none_iff_isSome]
  show _ ↔ optionError option ≠ none
  rw [Ne, optionError_eq_none_iff, not_not]
  constructor
  · intro h
    by_contra hknown
    obtain ⟨p, hp, rfl⟩ := Policy.exists_of_ofOption_ne hknown
    obtain ⟨source, file, hparse, hfound⟩ := exists_check_ne_nil hp
    exact hfound (h _ _ _ hparse)
  · exact fun h _ _ file _ ↦ check_of_disabled h file

end Rule.BeforeColon

namespace Config

/-- Everything that is wrong with a configuration is announced as such. -/
theorem Invalid.isPrefix_message (reason : Invalid) :
    utf8 "invalid config: " <+: reason.message := by
  cases reason with
  | violations items => exact List.prefix_append _ _
  | malformedOverride text =>
    have hprefix : utf8 "invalid config: " <+: utf8 "invalid config: rule override " := by decide
    exact hprefix.trans ((List.prefix_append _ _).trans (List.prefix_append _ _))
  | unknownRule name =>
    have hprefix : utf8 "invalid config: " <+: utf8 "invalid config: unknown rule " := by decide
    exact hprefix.trans (List.prefix_append _ _)
  | unknownOption message => exact List.prefix_append _ _

variable {registry : Registry} {strict : Bool} {rules : Entries RuleConfig} {c : Config}

/-- The rules that are on. -/
def enabled (rules : Entries RuleConfig) : Entries RuleConfig :=
  rules.filter fun entry ↦ entry.2.severity ≠ utf8 "off"

/-! ### One rule -/

/-- A rule cannot be used as it is configured, for a reason. -/
inductive Unusable (registry : Registry) (strict : Bool) (name : Bytes) (rule : RuleConfig) :
    Invalid → Prop
  | unregistered (h : registry.lookup? name = none) :
    Unusable registry strict name rule (.unknownRule name)
  | unknownOption {registered : Rule} {message : Bytes} (hstrict : strict = true)
    (hlookup : registry.lookup? name = some registered)
    (hoption : registered.optionError rule.option = some message) :
    Unusable registry strict name rule (.unknownOption message)

/-- The setting of a configured rule. -/
structure IsSetting (registry : Registry) (entry : Bytes × RuleConfig) (s : Setting) : Prop where
  registered : registry.lookup? entry.1 = some s.rule
  severity : s.severity
    = if entry.2.severity = utf8 "warning" then utf8 "warning" else utf8 "error"
  option : s.option = entry.2.option

section IsSetting

variable {entry : Bytes × RuleConfig} {s s' : Setting}

/-- A rule that is on has one setting. -/
theorem IsSetting.unique (h : IsSetting registry entry s) (h' : IsSetting registry entry s') :
    s = s' := by
  obtain ⟨rule, severity, option⟩ := s
  obtain ⟨rule', severity', option'⟩ := s'
  obtain ⟨hrule, hseverity, hoption⟩ := h
  obtain ⟨hrule', hseverity', hoption'⟩ := h'
  obtain rfl : rule = rule' := Option.some.inj (hrule.symm.trans hrule')
  obtain rfl : severity = severity' := hseverity.trans hseverity'.symm
  obtain rfl : option = option' := hoption.trans hoption'.symm
  rfl

theorem IsSetting.name_eq (h : IsSetting registry entry s) : s.rule.name = entry.1 := by
  simpa using List.find?_some h.registered

end IsSetting

section Setting

variable {name : Bytes} {rule : RuleConfig} {registered : Rule}

theorem setting_of_off (h : rule.severity = utf8 "off") :
    (setting registry strict name rule).2 = .ok none := by
  have hoff : rule.isEnabled = false := by simp [RuleConfig.isEnabled, Severity.off, h]
  simp [setting, hoff]

theorem setting_of_unregistered (hon : rule.severity ≠ utf8 "off")
    (h : registry.lookup? name = none) :
    (setting registry strict name rule).2 = .error (.unknownRule name) := by
  have henabled : rule.isEnabled = true := by simp [RuleConfig.isEnabled, Severity.off, hon]
  simp [setting, henabled, h]

/-- The option of a registered rule matters only if options are strict. -/
theorem setting_of_registered (hon : rule.severity ≠ utf8 "off")
    (h : registry.lookup? name = some registered) :
    (setting registry strict name rule).2
      = match registered.optionError rule.option, strict with
        | some message, true => .error (.unknownOption message)
        | _, _ => .ok (some ⟨registered, severityOf rule, rule.option⟩) := by
  have henabled : rule.isEnabled = true := by simp [RuleConfig.isEnabled, Severity.off, hon]
  rw [setting, henabled, h]
  cases hoption : registered.optionError rule.option with
  | none => simp [hoption]
  | some message => cases strict <;> simp [hoption]

/-- A registered rule is unusable exactly if options are strict and it does not know its own. -/
theorem unusable_of_registered {reason : Invalid} (h : registry.lookup? name = some registered) :
    Unusable registry strict name rule reason ↔
      ∃ message, strict = true ∧ registered.optionError rule.option = some message ∧
        reason = .unknownOption message := by
  constructor
  · intro hbad
    cases hbad with
    | unregistered hnone =>
      rw [h] at hnone
      cases hnone
    | unknownOption hstrict hlookup hoption =>
      obtain rfl := Option.some.inj (h.symm.trans hlookup)
      exact ⟨_, hstrict, hoption, rfl⟩
  · rintro ⟨message, hstrict, hoption, rfl⟩
    exact .unknownOption hstrict h hoption

/-- **What becomes of a configured rule**: an error if it is on and cannot be used, and else its
setting if it is on. -/
theorem setting_cases (registry : Registry) (strict : Bool) (name : Bytes) (rule : RuleConfig) :
    (∃ reason, rule.severity ≠ utf8 "off" ∧ Unusable registry strict name rule reason ∧
        (setting registry strict name rule).2 = .error reason) ∨
      ((rule.severity ≠ utf8 "off" → ∀ reason, ¬ Unusable registry strict name rule reason) ∧
        ∃ resolved, (setting registry strict name rule).2 = .ok resolved ∧
          List.Forall₂ (IsSetting registry) (enabled [(name, rule)]) resolved.toList) := by
  by_cases hon : rule.severity = utf8 "off"
  · have hnone : enabled [(name, rule)] = [] := by simp [enabled, hon]
    exact .inr ⟨(absurd hon ·), none, setting_of_off hon, by rw [hnone]; exact .nil⟩
  have hone : enabled [(name, rule)] = [(name, rule)] := by simp [enabled, hon]
  rw [hone]
  cases hlookup : registry.lookup? name with
  | none => exact .inl ⟨_, hon, .unregistered hlookup, setting_of_unregistered hon hlookup⟩
  | some registered =>
    have hsetting : IsSetting registry (name, rule) ⟨registered, severityOf rule, rule.option⟩ := by
      refine ⟨hlookup, ?_, rfl⟩
      simp [severityOf, Severity.warning, Severity.error]
    have hresolved := List.Forall₂.cons hsetting .nil
    rw [setting_of_registered hon hlookup]
    simp only [unusable_of_registered hlookup]
    cases hoption : registered.optionError rule.option with
    | none => exact .inr ⟨by simp, _, rfl, hresolved⟩
    | some message =>
      cases strict with
      | true => exact .inl ⟨_, hon, ⟨message, rfl, rfl, rfl⟩, rfl⟩
      | false => exact .inr ⟨by simp, _, rfl, hresolved⟩

end Setting

/-! ### One rule after the other -/

theorem settingsOf_cons (name : Bytes) (rule : RuleConfig) :
    (settingsOf registry strict ((name, rule) :: rules)).2
      = match (setting registry strict name rule).2 with
        | .error reason => .error reason
        | .ok resolved => (settingsOf registry strict rules).2.map (resolved.toList ++ ·) := by
  rw [settingsOf]
  obtain ⟨log, reason | resolved⟩ := setting registry strict name rule <;> rfl

/-- Rules are resolved up to the first one that is on and cannot be used. If there is none, each
rule that is on has its setting. -/
theorem settingsOf_cases (registry : Registry) (strict : Bool) (rules : Entries RuleConfig) :
    (∃ name rule reason, (name, rule) ∈ rules ∧ rule.severity ≠ utf8 "off" ∧
        Unusable registry strict name rule reason ∧
        (settingsOf registry strict rules).2 = .error reason) ∨
      ((∀ name rule, (name, rule) ∈ rules → rule.severity ≠ utf8 "off" →
          ∀ reason, ¬ Unusable registry strict name rule reason) ∧
        ∃ settings, (settingsOf registry strict rules).2 = .ok settings ∧
          List.Forall₂ (IsSetting registry) (enabled rules) settings) := by
  induction rules with
  | nil => exact .inr ⟨by simp, [], rfl, .nil⟩
  | cons entry rules ih =>
    obtain ⟨name, rule⟩ := entry
    rw [settingsOf_cons]
    rcases setting_cases registry strict name rule with
      ⟨reason, hon, hbad, herror⟩ | ⟨husable, resolved, hok, hresolved⟩
    · rw [herror]
      exact .inl ⟨name, rule, reason, List.mem_cons_self, hon, hbad, rfl⟩
    · rw [hok]
      rcases ih with ⟨name', rule', reason, hmem, hon, hbad, herror⟩ |
        ⟨hothers, settings, hsettings, hall⟩
      · rw [herror]
        exact .inl ⟨name', rule', reason, List.mem_cons_of_mem _ hmem, hon, hbad, rfl⟩
      · rw [hsettings]
        refine .inr ⟨fun name' rule' hmem ↦ ?_, resolved.toList ++ settings, rfl, ?_⟩
        · rcases List.mem_cons.1 hmem with heq | hmem
          · obtain ⟨rfl, rfl⟩ := Prod.mk.inj heq
            exact husable
          · exact hothers name' rule' hmem
        · have hsplit : enabled ((name, rule) :: rules)
              = enabled [(name, rule)] ++ enabled rules := List.filter_append [_] rules
          rw [hsplit]
          exact List.rel_append hresolved hall

/-! ### The settings of a configuration -/

/-- The settings that a configuration asks for: one for each rule that is on, in the order of their
names. -/
structure Resolves (registry : Registry) (c : Config) (settings : List Setting) : Prop where
  ascending : (settings.map (·.rule.name)).Pairwise (· < ·)
  settings : List.Forall₂ (IsSetting registry) (enabled c.ruleList.entries) settings

/-- The settings are in the order of the names. -/
theorem map_name_of_forall₂ {entries : List (Bytes × RuleConfig)} {settings : List Setting}
    (h : List.Forall₂ (IsSetting registry) entries settings) :
    settings.map (·.rule.name) = entries.map (·.1) := by
  induction h with
  | nil => rfl
  | cons hfirst _ ih => rw [List.map_cons, List.map_cons, hfirst.name_eq, ih]

/-- The rules of a configuration cannot all be used, or it has the settings that it asks for. -/
theorem settings_cases (registry : Registry) (c : Config) :
    (∃ name rule reason, c.ruleList.get? name = some rule ∧ rule.severity ≠ utf8 "off" ∧
        Unusable registry c.strictOptions name rule reason ∧
        (c.settings registry).2 = .error reason) ∨
      ((∀ name rule, c.ruleList.get? name = some rule → rule.severity ≠ utf8 "off" →
          ∀ reason, ¬ Unusable registry c.strictOptions name rule reason) ∧
        ∃ settings, (c.settings registry).2 = .ok settings ∧ Resolves registry c settings) := by
  simp only [KeyedList.get?_eq_some_iff]
  refine (settingsOf_cases registry c.strictOptions c.ruleList.entries).imp_right ?_
  rintro ⟨husable, settings, hok, hall⟩
  refine ⟨husable, settings, hok, ?_, hall⟩
  rw [map_name_of_forall₂ hall]
  exact List.Pairwise.sublist (List.filter_sublist.map _) c.ruleList.ascending

/-- There are no settings exactly if a rule that is on is unusable. -/
theorem settings_eq_error_iff (registry : Registry) (c : Config) :
    (∃ reason, (c.settings registry).2 = .error reason) ↔
      ∃ name rule reason, c.ruleList.get? name = some rule ∧ rule.severity ≠ utf8 "off" ∧
        Unusable registry c.strictOptions name rule reason := by
  constructor
  · rintro ⟨reason, herror⟩
    rcases settings_cases registry c with
      ⟨name, rule, reason', hget, hon, hbad, -⟩ | ⟨-, settings, hok, -⟩
    · exact ⟨name, rule, reason', hget, hon, hbad⟩
    · cases herror.symm.trans hok
  · rintro ⟨name, rule, reason, hget, hon, hbad⟩
    rcases settings_cases registry c with ⟨-, -, reason', -, -, -, herror⟩ | ⟨husable, -⟩
    · exact ⟨reason', herror⟩
    · exact absurd hbad (husable name rule hget hon reason)

/-- Settings are those that the rules of the configuration resolve to. -/
theorem resolves_of_settings {settings : List Setting}
    (h : (c.settings registry).2 = .ok settings) : Resolves registry c settings := by
  rcases settings_cases registry c with ⟨_, _, _, -, -, -, herror⟩ | ⟨-, others, hok, hall⟩
  · cases h.symm.trans herror
  · obtain rfl := Except.ok.inj (h.symm.trans hok)
    exact hall

/-- What cannot be used even if options are not strict cannot be used. -/
theorem Unusable.of_lenient {name : Bytes} {rule : RuleConfig} {reason : Invalid}
    (h : Unusable registry false name rule reason) : Unusable registry strict name rule reason := by
  cases h with
  | unregistered hnone => exact .unregistered hnone
  | unknownOption hstrict => cases hstrict

/-- What strict options accept is the same without them. -/
theorem settings_lenient {settings : List Setting}
    (h : ({ c with strictOptions := true }.settings registry).2 = .ok settings) :
    ({ c with strictOptions := false }.settings registry).2 = .ok settings := by
  let strict : Config := { c with strictOptions := true }
  let lenient : Config := { c with strictOptions := false }
  rcases settings_cases registry lenient with
    ⟨name, rule, reason, hget, hon, hbad, -⟩ | ⟨-, others, hok, hothers⟩
  · obtain ⟨reason', herror⟩ :=
      (settings_eq_error_iff registry strict).2 ⟨name, rule, reason, hget, hon, hbad.of_lenient⟩
    cases h.symm.trans herror
  · have hsettings := resolves_of_settings h
    have hunique : Relator.RightUnique (IsSetting registry) := fun _ _ _ ↦ IsSetting.unique
    rw [hunique.forall₂ hsettings.settings hothers.settings]
    exact hok

/-- If options are strict, the built-in rule is refused with the options that disable it. -/
theorem settings_builtin_eq_error_iff {severity : Severity} {option : OptionValue}
    (hstrict : c.strictOptions = true) (hon : severity ≠ utf8 "off")
    (hrules : c.rules = some (.ofList [(Rule.BeforeColon.name, ⟨severity, option⟩)])) :
    (∃ reason, (c.settings .builtin).2 = .error reason) ↔
      Rule.BeforeColon.rule.Disables option := by
  have hlist : c.ruleList = KeyedList.empty.put Rule.BeforeColon.name ⟨severity, option⟩ := by
    rw [ruleList, hrules]
    rfl
  have hlookup : Registry.builtin.lookup? Rule.BeforeColon.name = some Rule.BeforeColon.rule := by
    rfl
  rw [settings_eq_error_iff, Rule.BeforeColon.disables_iff, hlist, hstrict]
  constructor
  · rintro ⟨name, rule, reason, hget, -, hbad⟩
    rw [KeyedList.get?_put] at hget
    split at hget
    case isTrue hname =>
      subst hname
      obtain rfl := Option.some.inj hget
      obtain ⟨message, -, hoption, -⟩ := (unusable_of_registered hlookup).1 hbad
      exact ⟨message, hoption⟩
    case isFalse => cases hget
  · rintro ⟨message, hoption⟩
    refine ⟨Rule.BeforeColon.name, ⟨severity, option⟩, _, ?_, hon,
      (unusable_of_registered hlookup).2 ⟨message, rfl, hoption, rfl⟩⟩
    rw [KeyedList.get?_put, if_pos rfl]

/-- **What the settings are.** They are an error, announced as one of the configuration, if and only
if a rule that is on cannot be used. Otherwise they are those that the configuration asks for. What
strict options accept is no different without them, and for the built-in rule they refuse the
options with which it finds nothing, in any script. -/
theorem settings_resolve (registry : Registry) (c : Config) :
    ((∃ reason, (c.settings registry).2 = .error reason) ↔
        ∃ name rule reason, c.ruleList.get? name = some rule ∧ rule.severity ≠ utf8 "off" ∧
          Unusable registry c.strictOptions name rule reason) ∧
      (∀ reason, (c.settings registry).2 = .error reason →
        utf8 "invalid config: " <+: reason.message) ∧
      (∀ settings, (c.settings registry).2 = .ok settings → Resolves registry c settings) ∧
      (∀ settings, ({ c with strictOptions := true }.settings registry).2 = .ok settings →
        ({ c with strictOptions := false }.settings registry).2 = .ok settings) ∧
      (∀ option message, Rule.BeforeColon.rule.optionError option = some message →
        ∀ file, Rule.BeforeColon.rule.check file option = []) ∧
      ∀ severity option, severity ≠ utf8 "off" →
        let rules := .ofList [(Rule.BeforeColon.name, ⟨severity, option⟩)]
        (∃ reason, ({ c with strictOptions := true, rules := some rules }.settings .builtin).2
            = .error reason) ↔ Rule.BeforeColon.rule.Disables option := by
  refine ⟨settings_eq_error_iff registry c, fun reason _ ↦ reason.isPrefix_message,
    fun settings ↦ resolves_of_settings, fun settings ↦ settings_lenient, ?_, ?_⟩
  · intro option message hoption file
    refine Rule.BeforeColon.check_of_disabled ?_ file
    by_contra hknown
    exact absurd ((Rule.BeforeColon.optionError_eq_none_iff.2 hknown).symm.trans hoption) nofun
  · intro severity option hon rules
    exact settings_builtin_eq_error_iff rfl hon rfl

/-- A rule that is registered with the built-in one and takes any option. -/
def indulgent : Rule where
  name := utf8 "a"
  description := []
  options := none
  rationale := none
  fixable := false
  optionError _ := none
  check _ _ := []

/-- A warning, a rule that is off and not registered, and the built-in rule with an option that it
does not know. -/
def threeRules : Config :=
  { standard with
    rules := some (.ofList [(utf8 "a", ⟨Severity.warning, .int 7⟩),
      (utf8 "b", ⟨Severity.off, .null⟩), (Rule.BeforeColon.name, ⟨[], .text (utf8 "tab")⟩)]) }

/-- Of three rules one is off, one runs with a strange option, and one is what a strict
configuration fails on. -/
theorem settings_resolve_threeRules :
    let registry := Registry.builtin.register indulgent
    let strict : Config := { threeRules with strictOptions := true }
    (∃ settings, (threeRules.settings registry).2 = .ok settings ∧
        Resolves registry threeRules settings ∧
        settings.map (fun s ↦ (s.rule.name, s.severity))
          = [(utf8 "a", utf8 "warning"), (Rule.BeforeColon.name, utf8 "error")]) ∧
      ∃ reason, (strict.settings registry).2 = .error reason := by
  intro registry strict
  have hsettings : (threeRules.settings registry).2 = .ok
      [⟨indulgent, Severity.warning, .int 7⟩,
        ⟨Rule.BeforeColon.rule, Severity.error, .text (utf8 "tab")⟩] := by rfl
  obtain ⟨-, -, hresolves, -⟩ := settings_resolve registry threeRules
  refine ⟨⟨_, hsettings, hresolves _ hsettings, by decide +kernel⟩, ?_⟩
  exact (settings_resolve registry strict).1.2 ⟨Rule.BeforeColon.name, _, _, rfl, by decide,
    .unknownOption rfl rfl rfl⟩

end Config

end ColonGap
