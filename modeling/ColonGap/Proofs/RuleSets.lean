import ColonGap.Config.Decode
import ColonGap.Proofs.Fields

/-!
# The rules that a document gives

A set of rules is decoded from a node on its own if there is none before. Each of its rules is then
what an entry of the node says, and no entry that says something about a rule is lost. What an entry
says about a rule is read off it field by field (`SaysFields`): the severity is a text and the
option is any value.
-/

namespace ColonGap

namespace Config

open Yaml Decode

variable {fuel : Nat} {anchors : List (Nat × Node)} {node : Node} {name : Bytes}

/-- The names of the fields of a rule. -/
def ruleFieldNames : List Bytes :=
  [utf8 "severity", utf8 "option"]

/-- The configuration of a rule has two fields. -/
theorem hasFields_ruleTarget (fuel : Nat) : (ruleTarget fuel).HasFields ruleFieldNames where
  key := rfl
  fields := ⟨_, rfl⟩
  put _ node _ := steady_ite ((steady_scalar _ _ node).bind fun _ ↦ steady_pure _)
    ((steady_any fuel node).bind fun _ ↦ steady_pure _)

theorem textKeyed_ruleTarget (fuel : Nat) : (ruleTarget fuel).TextKeyed :=
  (hasFields_ruleTarget fuel).toTextKeyed

/-- A set of rules has texts for its keys. -/
theorem textKeyed_ruleSetTarget (fuel : Nat) (missing : Bool) :
    (ruleSetTarget fuel missing).TextKeyed where
  key := rfl
  put key node rules := by
    refine ((textKeyed_ruleTarget fuel).steady.fields fuel ruleType node .unset).bind fun r ↦ ?_
    exact steady_ite_anchors (fun anchors ↦ r.2 || (Document.tagOf anchors node == nullTag &&
      (missing || (rules.get? key.render).isNone))) (steady_pure _) (steady_pure _)

/-- Whether a node gives rules, and which, depends on the node alone. -/
theorem steady_ruleSet (fuel : Nat) (rules : Option (KeyedList RuleConfig)) (node : Node) :
    Steady (ruleSet fuel rules node) := by
  refine Steady.visit (fun node ↦ ?_) node
  split
  · refine (steady_keysDiffer _).bind fun _ ↦ steady_ite ?_ (steady_pure _)
    exact ((textKeyed_ruleSetTarget fuel false).steady.mappingEntries (steady_any fuel) fuel
      (textKeyed_ruleSetTarget fuel _).steady _ _).bind fun _ ↦ steady_pure _
  · refine (steady_liftM _).bind fun r ↦ ?_
    split
    · exact steady_pure _
    · exact (steady_misfit _ _).bind fun _ ↦ steady_pure _
  · exact (steady_misfit _ _).bind fun _ ↦ steady_pure _

/-! ### One rule -/

theorem put_severity {rule rule' : RuleConfig}
    (h : Decoded anchors ((ruleTarget fuel).put (.text (utf8 "severity")) node rule) rule') :
    ∃ r, Decoded anchors (text node) r ∧ rule' = { rule with severity := r.getD rule.severity } :=
  Decoded.map h (steady_scalar _ _ _)

theorem put_option {rule rule' : RuleConfig}
    (h : Decoded anchors ((ruleTarget fuel).put (.text (utf8 "option")) node rule) rule') :
    ∃ r, Decoded anchors (any fuel node) r ∧ rule' = { rule with option := r.getD rule.option } :=
  Decoded.map h (steady_any _ _)

/-- The severity is changed by its own field only. -/
theorem field_severity : (ruleTarget fuel).Field ruleFieldNames (utf8 "severity")
    RuleConfig.severity where
  mem := List.mem_cons_self
  plain _ := rfl
  unmerged := by decide
  others hkey hne h := by
    rcases List.mem_pair.1 hkey with rfl | rfl
    · exact absurd rfl hne
    · obtain ⟨r, -, rfl⟩ := put_option h
      rfl

/-- The option is changed by its own field only. -/
theorem field_option : (ruleTarget fuel).Field ruleFieldNames (utf8 "option")
    RuleConfig.option where
  mem := List.mem_cons_of_mem _ (List.mem_singleton_self _)
  plain _ := rfl
  unmerged := by decide
  others hkey hne h := by
    rcases List.mem_pair.1 hkey with rfl | rfl
    · obtain ⟨r, -, rfl⟩ := put_severity h
      rfl
    · exact absurd rfl hne

/-- What entries say about a rule about which nothing was said before: a severity that is not set,
or null, is the empty one, and an option that is not set is null. -/
structure SaysFields (anchors : List (Nat × Node)) (entries : List (Node × Node))
    (rule : RuleConfig) : Prop where
  severity : LaysOver anchors (field? anchors (utf8 "severity") entries) (Node.text? anchors) [] []
    rule.severity
  noOption : field? anchors (utf8 "option") entries = none → rule.option = .null
  option : ∀ value, field? anchors (utf8 "option") entries = some value →
    value.IsValue anchors rule.option

/-- What a node says about a rule about which nothing was said before. -/
structure Says (fuel : Nat) (anchors : List (Nat × Node)) (node : Node) (rule : RuleConfig) :
    Prop where
  /-- It is what decoding the node gives. -/
  decoded : ∃ found,
    Decoded anchors (Decode.fields fuel (ruleTarget fuel) ruleType node .unset) (rule, found)
  /-- That is what its entries say, of which there are none if it is no mapping. -/
  fields : ∃ entries, HasEntries anchors (some node) entries ∧ SaysFields anchors entries rule

/-- What a node says about a rule can be read off its entries. -/
theorem says_of_decoded {rule : RuleConfig} {found : Bool}
    (h : Decoded anchors (Decode.fields fuel (ruleTarget fuel) ruleType node .unset)
      (rule, found)) : Says fuel anchors node rule := by
  refine ⟨⟨found, h⟩, ?_⟩
  obtain ⟨s, s', rfl, hmerged, hrun⟩ := h
  have ht := hasFields_ruleTarget fuel
  obtain ⟨entries, hentries, hseverity⟩ := hrun.fields ht field_severity hmerged
  obtain ⟨entries', hentries', hoption⟩ := hrun.fields ht field_option hmerged
  obtain rfl := hentries.unique hentries'
  refine ⟨entries, hentries, ?severity, ?noOption, ?option⟩
  case severity =>
    refine laysOver_scalar "string" (fun hput ↦ ?_) hseverity
    obtain ⟨r, hr, rfl⟩ := put_severity hput
    exact ⟨r, hr, rfl⟩
  case noOption =>
    intro hfield
    rw [hfield] at hoption
    obtain ⟨hsame⟩ := hoption
    exact hsame
  case option =>
    intro value hfield
    rw [hfield] at hoption
    obtain _ | ⟨-, hput, hbehind⟩ := hoption
    obtain ⟨_, hr, rfl⟩ := put_option hput
    obtain ⟨v, rfl, hv⟩ := hr.any
    rw [hbehind]
    exact hv

/-! ### Sets of rules -/

/-- A rule is put into a set as its node says, if it is put there at all; a mapping always is. -/
theorem put_rule {missing : Bool} {rules rules' : KeyedList RuleConfig}
    (h : Decoded anchors ((ruleSetTarget fuel missing).put (.text name) node rules) rules') :
    (∃ rule, Says fuel anchors node rule ∧ rules' = rules.put name rule) ∨
      (isMergeSource anchors node = false ∧ rules' = rules) := by
  obtain ⟨s, s', hs, hmerged, hrun⟩ := h
  obtain ⟨⟨rule, found⟩, s₁, hfields, hrun⟩ := hrun.bind
    ((textKeyed_ruleTarget fuel).steady.fields fuel ruleType node .unset) fun r ↦ by
      exact steady_ite_anchors (fun anchors ↦ r.2 || (Document.tagOf anchors node == nullTag &&
        (missing || (rules.get? name).isNone))) (steady_pure _) (steady_pure _)
  have hrule : Says fuel anchors node rule := says_of_decoded ⟨s, s₁, hs, hmerged, hfields⟩
  obtain ⟨-, hrun⟩ | ⟨hfound, hrun⟩ := Runs.ite_anchors
    (fun anchors ↦ found || (Document.tagOf anchors node == nullTag &&
      (missing || (rules.get? name).isNone))) hrun
  · obtain ⟨rfl, -⟩ := Runs.pure_iff.1 hrun
    exact .inl ⟨rule, hrule, rfl⟩
  · obtain ⟨rfl, -⟩ := Runs.pure_iff.1 hrun
    refine .inr ⟨Bool.eq_false_iff.2 fun hnode ↦ ?_, rfl⟩
    rw [← hs] at hnode
    have htrue : found = true := hfields.fields_snd (textKeyed_ruleTarget fuel) hnode
    exact Bool.false_ne_true ((Bool.or_eq_false_iff.1 hfound).1.symm.trans htrue)

/-- Whatever rules come from entries is what one of them says. -/
theorem keeps_rules (missing : Bool) (entries : List (Node × Node)) :
    (ruleSetTarget fuel missing).KeepsNamed anchors entries fun rules ↦
      ∀ name rule, KeyedList.get? name rules = some rule →
        ∃ entry ∈ entries, isNamed anchors name entry = true ∧ Says fuel anchors entry.2 rule := by
  intro name entry rules rules' hmem hnamed hput hrules
  obtain ⟨rule, hrule, rfl⟩ | ⟨-, rfl⟩ := put_rule hput
  · intro name' rule' hget
    rw [KeyedList.get?_put] at hget
    split at hget
    case isTrue hname =>
      subst hname
      cases hget
      exact ⟨entry, hmem, hnamed, hrule⟩
    case isFalse => exact hrules name' rule' hget
  · exact hrules

/-- Once there is a rule of a name, there is one in the end, and a mapping makes one. -/
theorem fills_rule (missing : Bool) (name : Bytes) :
    (ruleSetTarget fuel missing).Fills anchors name (isMergeSource anchors · = true)
      fun rules ↦ (KeyedList.get? name rules).isSome = true where
  fields := rfl
  keeps entries := by
    intro name' entry rules rules' hmem hnamed hput hrules
    obtain ⟨rule, -, rfl⟩ | ⟨-, rfl⟩ := put_rule hput
    · rw [KeyedList.get?_put]
      split
      · rfl
      · exact hrules
    · exact hrules
  put := by
    intro node rules rules' hnode hput
    obtain ⟨rule, -, rfl⟩ | ⟨hnot, -⟩ := put_rule hput
    · rw [KeyedList.get?_put, if_pos rfl]
      rfl
    · exact absurd hnode (ne_true_of_eq_false hnot)

/-- The set of rules that a node gives. -/
structure GivesRules (fuel : Nat) (anchors : List (Nat × Node)) (node : Node)
    (rules : Option (KeyedList RuleConfig)) : Prop where
  /-- It is what decoding the node gives where there were no rules before, and nothing else is. -/
  decoded : ∀ rules', Decoded anchors (ruleSet fuel none node) rules' ↔ rules' = rules
  /-- It is missing if the node is null, and else every rule is what an entry says, and no mapping
  that says something about a rule is lost. -/
  entries : (node.IsNull anchors ∧ rules = none) ∨
    ∃ set entries, rules = some set ∧ HasEntries anchors (some node) entries ∧
      (∀ name rule, KeyedList.get? name set = some rule →
        ∃ entry ∈ entries, isNamed anchors name entry = true ∧ Says fuel anchors entry.2 rule) ∧
      (∀ name value, name ≠ utf8 "<<" → field? anchors name entries = some value →
        isMergeSource anchors value = true → (KeyedList.get? name set).isSome = true)

/-- Decoding a node where there were no rules before gives none if the node is null. It gives a set
otherwise, in which every rule is what an entry says, and no mapping that says something about a
rule is lost. -/
theorem ruleSet_cases {rules : Option (KeyedList RuleConfig)}
    (h : Decoded anchors (ruleSet fuel none node) rules) :
    (node.IsNull anchors ∧ rules = none) ∨
      ∃ set entries, rules = some set ∧ HasEntries anchors (some node) entries ∧
        (∀ name rule, KeyedList.get? name set = some rule → ∃ entry ∈ entries,
          isNamed anchors name entry = true ∧ Says fuel anchors entry.2 rule) ∧
        (∀ name value, name ≠ utf8 "<<" → field? anchors name entries = some value →
          isMergeSource anchors value = true → (KeyedList.get? name set).isSome = true) := by
  obtain ⟨s, s', rfl, hmerged, hrun⟩ := h
  obtain ⟨s₁, s₂, hrun, hanchors, hmerged₁, -⟩ := hrun.visit
  rcases hbehind : node.behind s.anchors with ⟨line, tag, literal, written⟩ | ⟨line, tag, items⟩ |
    ⟨line, tag, entries⟩ | _
  · rw [hbehind] at hrun
    obtain ⟨⟨found, v⟩, hvalue, hrun⟩ := hrun.liftM_bind
    split at hrun
    case h_1 hnull =>
      obtain ⟨rfl, -⟩ := Runs.pure_iff.1 hrun
      obtain rfl : v = .null := hnull
      exact .inl ⟨⟨written, Node.value?_of_scalarValue hbehind hvalue⟩, rfl⟩
    case h_2 hnot => exact absurd hrun (not_runs_misfit_bind (steady_pure _) nofun)
  · rw [hbehind] at hrun
    exact absurd hrun (not_runs_misfit_bind (steady_pure _) nofun)
  · rw [hbehind] at hrun
    have hsteady := (textKeyed_ruleSetTarget fuel false).steady.mappingEntries (steady_any fuel) fuel
      (textKeyed_ruleSetTarget fuel true).steady entries .empty
    obtain ⟨differ, s₃, hkeys, hdecoded⟩ := hrun.bind (steady_keysDiffer _) fun _ ↦
      steady_ite (hsteady.bind fun _ ↦ steady_pure _) (steady_pure _)
    obtain ⟨rfl, rfl⟩ := hkeys.keysDiffer
    obtain ⟨set, hset, rfl⟩ := Runs.map (f := some) hdecoded hsteady
    have hs₃ := hmerged₁.trans hmerged
    have htarget := textKeyed_ruleSetTarget fuel true
    have hothers := textKeyed_ruleSetTarget fuel false
    obtain ⟨inner, hinner, hkeeps⟩ := hset.mappingEntries_keeps htarget.steady hothers.steady hs₃
    rw [hanchors] at hinner hkeeps
    refine .inr ⟨set, entries ++ inner, rfl, hasEntries_of_mapping hbehind hinner, ?_, ?_⟩
    · exact hkeeps _ (htarget.keeps (keeps_rules true _)) (hothers.keeps (keeps_rules false _))
        nofun
    · intro name value hne hvalue hmapping
      obtain ⟨inner', hinner', hfills⟩ := hset.mappingEntries_fills htarget hothers
        (fills_rule true name) (fills_rule false name) hne hs₃
      rw [hanchors] at hinner' hfills
      obtain rfl := hinner.unique hinner'
      exact hfills value hvalue hmapping
  · exact absurd hbehind (Node.behind_ne_reference _ _)

/-- Decoding a node where there were no rules before gives its rules. -/
theorem givesRules_of_decoded {rules : Option (KeyedList RuleConfig)}
    (h : Decoded anchors (ruleSet fuel none node) rules) : GivesRules fuel anchors node rules := by
  refine ⟨fun rules' ↦ ⟨fun h' ↦ Decoded.unique (steady_ruleSet fuel none node) h' h, ?_⟩, ?_⟩
  · rintro rfl
    exact h
  · exact ruleSet_cases h

end Config

end ColonGap
