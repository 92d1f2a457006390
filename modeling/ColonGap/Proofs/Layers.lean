import ColonGap.Proofs.Plan
import ColonGap.Proofs.RuleSets

/-!
# How configuration files are laid over the standard configuration

A document is decoded twice: once to see whether it has rules, and once over the standard
configuration, without its rules if it has some. Both times the same entries are met, those at
`lint`, and the first one of a name sets its field. So a field that is not set keeps its standard
value, a list replaces the standard list, and of the standard rules either all or none are left.
-/

namespace ColonGap

namespace Config

open Yaml Decode

variable {fuel : Nat} {s s' : Decoding}

/-! ### The targets -/

/-- The part of a document that may hold rules has one field. -/
theorem hasFields_rulesTarget : rulesTarget.HasFields [utf8 "rules"] where
  key := rfl
  fields := ⟨_, rfl⟩
  put _ _ _ := steady_countVisit.bind fun _ ↦ steady_pure _

/-- A document that is asked for rules has one field. -/
theorem hasFields_hasRulesTarget (fuel : Nat) : (hasRulesTarget fuel).HasFields [utf8 "lint"] where
  key := rfl
  fields := ⟨_, rfl⟩
  put _ node found :=
    (hasFields_rulesTarget.steady.fields fuel _ node found).bind fun _ ↦ steady_pure _

/-- The names of the fields of a configuration. -/
def fieldNames : List Bytes :=
  ["format", "strict_options", "concurrency", "extensions", "exclude", "rules"].map utf8

/-- A configuration has the fields of a configuration file. -/
theorem hasFields_configTarget (fuel : Nat) : (configTarget fuel).HasFields fieldNames where
  key := rfl
  fields := ⟨_, rfl⟩
  put _ node c := by
    have htext := steady_scalar "string" textOf node
    have hbool := steady_scalar "bool" truthOf node
    have hint := steady_scalar "int" wholeOf node
    have htexts := steady_texts node
    have hrules := steady_ruleSet fuel c.rules node
    exact steady_ite (htext.bind fun _ ↦ steady_pure _) <|
      steady_ite (hbool.bind fun _ ↦ steady_pure _) <|
      steady_ite (hint.bind fun _ ↦ steady_pure _) <|
      steady_ite (htexts.bind fun _ ↦ steady_pure _) <|
      steady_ite (htexts.bind fun _ ↦ steady_pure _) (hrules.bind fun _ ↦ steady_pure _)

/-- A document around a configuration has one field. -/
theorem hasFields_documentTarget (fuel : Nat) : (documentTarget fuel).HasFields [utf8 "lint"] where
  key := rfl
  fields := ⟨_, rfl⟩
  put _ node c :=
    ((hasFields_configTarget fuel).steady.fields fuel _ node c).bind fun _ ↦ steady_pure _

section Put

variable {anchors : List (Nat × Node)} {node : Node} {c c' : Config}

theorem put_format
    (h : Decoded anchors ((configTarget fuel).put (.text (utf8 "format")) node c) c') :
    ∃ r, Decoded anchors (text node) r ∧ c' = { c with format := r.getD c.format } :=
  Decoded.map h (steady_scalar _ _ _)

theorem put_strictOptions
    (h : Decoded anchors ((configTarget fuel).put (.text (utf8 "strict_options")) node c) c') :
    ∃ r, Decoded anchors (bool node) r ∧
      c' = { c with strictOptions := r.getD c.strictOptions } :=
  Decoded.map h (steady_scalar _ _ _)

theorem put_concurrency
    (h : Decoded anchors ((configTarget fuel).put (.text (utf8 "concurrency")) node c) c') :
    ∃ r, Decoded anchors (int node) r ∧ c' = { c with concurrency := r.getD c.concurrency } :=
  Decoded.map h (steady_scalar _ _ _)

theorem put_extensions
    (h : Decoded anchors ((configTarget fuel).put (.text (utf8 "extensions")) node c) c') :
    ∃ r, Decoded anchors (texts node) r ∧ c' = { c with extensions := r.getD c.extensions } :=
  Decoded.map h (steady_texts _)

theorem put_exclude
    (h : Decoded anchors ((configTarget fuel).put (.text (utf8 "exclude")) node c) c') :
    ∃ r, Decoded anchors (texts node) r ∧ c' = { c with exclude := r.getD c.exclude } :=
  Decoded.map h (steady_texts _)

theorem put_rules (h : Decoded anchors ((configTarget fuel).put (.text (utf8 "rules")) node c) c') :
    ∃ r, Decoded anchors (ruleSet fuel c.rules node) r ∧ c' = { c with rules := r } :=
  Decoded.map h (steady_ruleSet _ _ _)

end Put

/-- The field of a name changes no other part of a configuration. -/
structure Changes (name : Bytes) (c c' : Config) : Prop where
  format : name ≠ utf8 "format" → c'.format = c.format
  strictOptions : name ≠ utf8 "strict_options" → c'.strictOptions = c.strictOptions
  concurrency : name ≠ utf8 "concurrency" → c'.concurrency = c.concurrency
  extensions : name ≠ utf8 "extensions" → c'.extensions = c.extensions
  exclude : name ≠ utf8 "exclude" → c'.exclude = c.exclude
  rules : name ≠ utf8 "rules" → c'.rules = c.rules

/-- Decoding the value of a field changes this field and no other. -/
theorem changes_of_decoded {anchors : List (Nat × Node)} {name : Bytes} {node : Node}
    {c c' : Config} (hname : name ∈ fieldNames)
    (h : Decoded anchors ((configTarget fuel).put (.text name) node c) c') : Changes name c c' := by
  simp only [fieldNames, List.map_cons, List.map_nil, List.mem_cons, List.not_mem_nil,
    or_false] at hname
  rcases hname with rfl | rfl | rfl | rfl | rfl | rfl
  · obtain ⟨r, -, rfl⟩ := put_format h
    exact ⟨(absurd rfl ·), fun _ ↦ rfl, fun _ ↦ rfl, fun _ ↦ rfl, fun _ ↦ rfl, fun _ ↦ rfl⟩
  · obtain ⟨r, -, rfl⟩ := put_strictOptions h
    exact ⟨fun _ ↦ rfl, (absurd rfl ·), fun _ ↦ rfl, fun _ ↦ rfl, fun _ ↦ rfl, fun _ ↦ rfl⟩
  · obtain ⟨r, -, rfl⟩ := put_concurrency h
    exact ⟨fun _ ↦ rfl, fun _ ↦ rfl, (absurd rfl ·), fun _ ↦ rfl, fun _ ↦ rfl, fun _ ↦ rfl⟩
  · obtain ⟨r, -, rfl⟩ := put_extensions h
    exact ⟨fun _ ↦ rfl, fun _ ↦ rfl, fun _ ↦ rfl, (absurd rfl ·), fun _ ↦ rfl, fun _ ↦ rfl⟩
  · obtain ⟨r, -, rfl⟩ := put_exclude h
    exact ⟨fun _ ↦ rfl, fun _ ↦ rfl, fun _ ↦ rfl, fun _ ↦ rfl, (absurd rfl ·), fun _ ↦ rfl⟩
  · obtain ⟨r, -, rfl⟩ := put_rules h
    exact ⟨fun _ ↦ rfl, fun _ ↦ rfl, fun _ ↦ rfl, fun _ ↦ rfl, fun _ ↦ rfl, (absurd rfl ·)⟩

/-- A part of a configuration that no other field changes is the part of a field. -/
theorem field_configTarget {β : Type} {name : Bytes} {get : Config → β} (hname : name ∈ fieldNames)
    (hget : ∀ {key c c'}, Changes key c c' → key ≠ name → get c' = get c) :
    (configTarget fuel).Field fieldNames name get where
  mem := hname
  plain := by
    simp only [fieldNames, List.map_cons, List.map_nil, List.mem_cons, List.not_mem_nil,
      or_false] at hname
    rcases hname with rfl | rfl | rfl | rfl | rfl | rfl <;> exact fun _ ↦ rfl
  unmerged := by
    rintro rfl
    exact absurd hname (by decide)
  others hkey hne h := hget (changes_of_decoded hkey h) hne

/-! ### The entries of a document -/

/-- The entries of a document at `lint`. -/
def LintEntries (document : Document) (lint : List (Node × Node)) : Prop :=
  ∃ top, HasEntries document.anchors document.root top ∧
    HasEntries document.anchors (field? document.anchors (utf8 "lint") top) lint

/-- A document has one list of entries at `lint`. -/
theorem LintEntries.unique {document : Document} {lint lint' : List (Node × Node)}
    (h : LintEntries document lint) (h' : LintEntries document lint') : lint = lint' := by
  obtain ⟨top, htop, hlint⟩ := h
  obtain ⟨top', htop', hlint'⟩ := h'
  obtain rfl := Spreads.unique htop htop'
  exact Spreads.unique hlint hlint'

section Lint

variable {σ β : Type} {outer t : Decode.Target σ} {names : List Bytes} {name : Bytes} {get : σ → β}

/-- A document sets a field by its entries at `lint`, whatever they are decoded into. -/
theorem exists_lintEntries (houter : outer.HasFields [utf8 "lint"]) (ht : t.HasFields names)
    (hget : t.Field names name get) {type outerType : Bytes}
    (hput : ∀ key node whole, outer.put key node whole
      = do return (← Decode.fields fuel t type node whole).1)
    {document : Document} {start value : σ}
    (h : decodeDocument document (fun node whole ↦ do
      return (← Decode.fields fuel outer outerType node whole).1) start = .ok value) :
    ∃ lint, LintEntries document lint ∧
      t.Sets document.anchors name get (field? document.anchors name lint) start value := by
  have hlint : outer.Field [utf8 "lint"] (utf8 "lint") id :=
    { mem := List.mem_singleton_self _
      plain := fun _ ↦ rfl
      unmerged := by decide
      others := fun hkey hne ↦ absurd (List.mem_singleton.1 hkey) hne }
  obtain ⟨top, htop, hsets⟩ := decodeDocument_fields houter hlint h
  unfold LintEntries
  rcases hfield : field? document.anchors (utf8 "lint") top with _ | node
  · rw [hfield] at hsets
    obtain ⟨hsame⟩ := hsets
    obtain rfl : value = start := hsame
    exact ⟨[], ⟨top, htop, hfield ▸ .nil⟩, .unset rfl⟩
  · rw [hfield] at hsets
    obtain _ | ⟨hbefore, ⟨s, s', hs, hmerged, hrun⟩, hbehind⟩ := hsets
    rw [hput] at hrun
    obtain ⟨r, hfields, rfl⟩ := hrun.map (ht.steady.fields fuel _ _ _)
    obtain ⟨lint, hentries, hsets⟩ := hfields.fields ht hget hmerged
    rw [hs] at hentries hsets
    obtain rfl : value = r.1 := hbehind
    refine ⟨lint, ⟨top, htop, hfield ▸ hentries⟩, hsets.of_before ?_⟩
    exact congrArg get hbefore

end Lint

/-! ### The two passes -/

/-- The first pass finds rules if and only if there is an entry of that name at `lint`. -/
theorem exists_lintEntries_hasRules {document : Document} {hasRules : Bool}
    (h : decodeDocument document (fun node found ↦ do
      return (← Decode.fields fuel (hasRulesTarget fuel) documentType node found).1) false
        = .ok hasRules) :
    ∃ lint, LintEntries document lint ∧
      hasRules = (field? document.anchors (utf8 "rules") lint).isSome := by
  have hrules : rulesTarget.Field [utf8 "rules"] (utf8 "rules") id :=
    { mem := List.mem_singleton_self _
      plain := fun _ ↦ rfl
      unmerged := by decide
      others := fun hkey hne ↦ absurd (List.mem_singleton.1 hkey) hne }
  obtain ⟨lint, hlint, hsets⟩ := exists_lintEntries (hasFields_hasRulesTarget fuel)
    hasFields_rulesTarget hrules (fun _ _ _ ↦ rfl) h
  refine ⟨lint, hlint, ?_⟩
  rcases hfield : field? document.anchors (utf8 "rules") lint with _ | node
  · rw [hfield] at hsets
    obtain ⟨hsame⟩ := hsets
    exact hsame
  · rw [hfield] at hsets
    obtain _ | ⟨-, ⟨s, s', -, -, hrun⟩, hbehind⟩ := hsets
    obtain ⟨_, -, rfl⟩ := hrun.map steady_countVisit
    exact hbehind

/-! ### All together -/

/-- How the entries of a document at `lint` are laid over the standard configuration. -/
structure Layers (fuel : Nat) (anchors : List (Nat × Node)) (lint : List (Node × Node))
    (c : Config) : Prop where
  format : LaysOver anchors (field? anchors (utf8 "format") lint) (Node.text? anchors)
    standard.format standard.format c.format
  strictOptions : LaysOver anchors (field? anchors (utf8 "strict_options") lint)
    (Node.read? truthOf anchors) standard.strictOptions standard.strictOptions c.strictOptions
  concurrency : LaysOver anchors (field? anchors (utf8 "concurrency") lint)
    (Node.read? wholeOf anchors) standard.concurrency standard.concurrency c.concurrency
  extensions : LaysOver anchors (field? anchors (utf8 "extensions") lint)
    (fun node ↦ (node.texts? anchors).map some) standard.extensions none c.extensions
  exclude : LaysOver anchors (field? anchors (utf8 "exclude") lint)
    (fun node ↦ (node.texts? anchors).map some) standard.exclude none c.exclude
  /-- Without an entry for the rules they are the standard ones. -/
  standardRules : field? anchors (utf8 "rules") lint = none → c.rules = standard.rules
  /-- With one they are those that it gives, as if there were no standard ones. -/
  ownRules : ∀ node, field? anchors (utf8 "rules") lint = some node →
    GivesRules fuel anchors node c.rules

/-- What the second pass gives is the entries at `lint`, laid over the standard configuration. -/
theorem layers_of_decodeDocument {document : Document} {start c : Config}
    {lint : List (Node × Node)} (hlint : LintEntries document lint)
    (hstart : start = if (field? document.anchors (utf8 "rules") lint).isSome
      then { standard with rules := none } else standard)
    (h : decodeDocument document (fun node c ↦ do
      return (← Decode.fields fuel (documentTarget fuel) (utf8 "config.Config") node c).1) start
        = .ok c) : Layers fuel document.anchors lint c := by
  have hsets {β : Type} {name : Bytes} {get : Config → β} (hname : name ∈ fieldNames)
      (hget : ∀ {key c c'}, Changes key c c' → key ≠ name → get c' = get c) :
      (configTarget fuel).Sets document.anchors name get (field? document.anchors name lint)
        start c := by
    obtain ⟨lint', hlint', hsets⟩ := exists_lintEntries (hasFields_documentTarget fuel)
      (hasFields_configTarget fuel) (field_configTarget hname hget) (fun _ _ _ ↦ rfl) h
    obtain rfl := hlint.unique hlint'
    exact hsets
  have hother : start.format = standard.format ∧ start.strictOptions = standard.strictOptions ∧
      start.concurrency = standard.concurrency ∧ start.extensions = standard.extensions ∧
      start.exclude = standard.exclude := by
    rw [hstart]
    split <;> exact ⟨rfl, rfl, rfl, rfl, rfl⟩
  obtain ⟨hformat, hstrictOptions, hconcurrency, hextensions, hexclude⟩ := hother
  have hrules := hsets (by decide) Changes.rules
  constructor
  case format =>
    rw [← hformat]
    refine laysOver_scalar "string" (fun hput ↦ ?_) (hsets (by decide) Changes.format)
    obtain ⟨r, hr, rfl⟩ := put_format hput
    exact ⟨r, hr, rfl⟩
  case strictOptions =>
    rw [← hstrictOptions]
    refine laysOver_scalar "bool" (fun hput ↦ ?_) (hsets (by decide) Changes.strictOptions)
    obtain ⟨r, hr, rfl⟩ := put_strictOptions hput
    exact ⟨r, hr, rfl⟩
  case concurrency =>
    rw [← hconcurrency]
    refine laysOver_scalar "int" (fun hput ↦ ?_) (hsets (by decide) Changes.concurrency)
    obtain ⟨r, hr, rfl⟩ := put_concurrency hput
    exact ⟨r, hr, rfl⟩
  case extensions =>
    rw [← hextensions]
    refine laysOver_texts (fun hput ↦ ?_) (hsets (by decide) Changes.extensions)
    obtain ⟨r, hr, rfl⟩ := put_extensions hput
    exact ⟨r, hr, rfl⟩
  case exclude =>
    rw [← hexclude]
    refine laysOver_texts (fun hput ↦ ?_) (hsets (by decide) Changes.exclude)
    obtain ⟨r, hr, rfl⟩ := put_exclude hput
    exact ⟨r, hr, rfl⟩
  case standardRules =>
    intro hfield
    rw [hfield] at hrules hstart
    obtain ⟨hsame⟩ := hrules
    rw [hsame, hstart]
    rfl
  case ownRules =>
    intro node hfield
    rw [hfield] at hrules hstart
    obtain _ | ⟨hbefore, hput, hbehind⟩ := hrules
    obtain ⟨r, hr, rfl⟩ := put_rules hput
    rw [hbefore, hstart] at hr
    rw [hbehind]
    exact givesRules_of_decoded hr

/-- A text that can be decoded is that of a document. -/
theorem ofText_eq_ok {source : Bytes} {c : Config} (h : ofText source = .ok c) :
    ∃ document, Yaml.parse source = .ok document ∧
      ofDocument (nestingBound source) document = .ok c := by
  unfold ofText at h
  rcases hparse : Yaml.parse source with fault | document
  · rw [hparse] at h
    cases h
  · rw [hparse] at h
    exact ⟨document, rfl, h⟩

/-- What a document is decoded to is its entries at `lint`, laid over the standard configuration. -/
theorem layers_of_ofDocument {document : Document} {c : Config}
    (h : ofDocument fuel document = .ok c) :
    ∃ lint, LintEntries document lint ∧ Layers fuel document.anchors lint c := by
  unfold ofDocument at h
  rcases hfirst : decodeDocument document (fun node found ↦ do
    return (← Decode.fields fuel (hasRulesTarget fuel) documentType node found).1) false
    with fault | hasRules
  · rw [hfirst] at h
    cases h
  · rw [hfirst] at h
    obtain ⟨lint, hlint, rfl⟩ := exists_lintEntries_hasRules hfirst
    exact ⟨lint, hlint, layers_of_decodeDocument hlint rfl h⟩

/-- Each field of a configuration file that is set is laid over its standard value, and no other
value changes; a set of rules stands alone. What comes of this is valid. -/
theorem parse_layers {source : Bytes} {c : Config} (h : parse source = .ok c) :
    c.validate = .ok c ∧ ∃ document lint, Yaml.parse source = .ok document ∧
      LintEntries document lint ∧ Layers (nestingBound source) document.anchors lint c := by
  obtain ⟨hdecoded, hvalid⟩ := parse_eq_ok h
  obtain ⟨document, hparse, hdocument⟩ := ofText_eq_ok hdecoded
  obtain ⟨lint, hlint, hlayers⟩ := layers_of_ofDocument hdocument
  exact ⟨hvalid, document, lint, hparse, hlint, hlayers⟩

/-- A file that merges a mapping, hides one field of it, and has null for its rules. -/
def mergingFile : Bytes :=
  utf8 "lint: \x7b<<: \x7bformat: json, concurrency: 3\x7d, concurrency: ~, rules: \x7d"

/-- A file with rules of its own: one has a severity and an option, one says nothing. -/
def rulesFile : Bytes :=
  utf8 "lint: \x7brules: \x7ba: \x7bseverity: warning, " ++
    utf8 "option: \x7bmax: 2, names: [x, ~]\x7d\x7d, b: ~\x7d\x7d"

/-- The rules of a configuration by name, with their severities and the texts of their options. -/
def ruleView (c : Config) : Option (List (Bytes × Bytes × Bytes)) :=
  c.rules.map fun rules ↦ rules.map fun (name, rule) ↦ (name, rule.severity, rule.option.render)

/-- One file has null for its rules, and one has some. -/
theorem parse_layers_mergingFile :
    (∃ c, parse mergingFile = .ok c ∧
      (c.format, c.concurrency, c.rules.isNone) = (utf8 "json", 0, true) ∧
      c.validate = .ok c ∧ ∃ document lint, Yaml.parse mergingFile = .ok document ∧
        LintEntries document lint ∧
          Layers (nestingBound mergingFile) document.anchors lint c) ∧
    ∃ c, parse rulesFile = .ok c ∧
      c.ruleView = some [(utf8 "a", utf8 "warning", utf8 "map[max:2 names:[x <nil>]]"),
        (utf8 "b", [], utf8 "<nil>")] ∧
      c.validate = .ok c ∧ ∃ document lint, Yaml.parse rulesFile = .ok document ∧
        LintEntries document lint ∧ Layers (nestingBound rulesFile) document.anchors lint c := by
  have hview : ((parse mergingFile).toOption.map fun c ↦
      (c.format, c.concurrency, c.rules.isNone)) = some (utf8 "json", 0, true) := by
    decide +kernel
  have hrules : (parse rulesFile).toOption.map ruleView
      = some (some [(utf8 "a", utf8 "warning", utf8 "map[max:2 names:[x <nil>]]"),
          (utf8 "b", [], utf8 "<nil>")]) := by
    decide +kernel
  constructor
  · rcases hparse : parse mergingFile with fault | c
    · rw [hparse] at hview
      cases hview
    · rw [hparse] at hview
      exact ⟨c, rfl, Option.some_inj.1 hview, parse_layers hparse⟩
  · rcases hparse : parse rulesFile with fault | c
    · rw [hparse] at hrules
      cases hrules
    · rw [hparse] at hrules
      exact ⟨c, rfl, Option.some_inj.1 hrules, parse_layers hparse⟩

end Config

end ColonGap
