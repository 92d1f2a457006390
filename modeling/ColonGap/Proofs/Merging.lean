import ColonGap.Proofs.Mappings

/-!
# Mappings that merge others

The entries of a mapping are followed by those of the mappings it merges, and so on in depth
(`Spreads`, a relation, as a reference may lead back to where it stands; no run ends then). What a
run does at all these entries is followed from one mapping to the next by a law of merging
(`Target.Law`). There are three such laws: the first entry with the name of a field sets the field;
what every entry keeps is kept; and what is given at a name is not lost.
-/

namespace ColonGap.Yaml

variable {anchors : List (Nat × Node)} {name : Bytes} {entry : Node × Node}
  {entries : List (Node × Node)}

/-- The nodes of the mappings that a mapping with these entries merges. -/
def mergeSources (entries : List (Node × Node)) : List Node :=
  match Decode.mergeEntry? entries with
  | none => []
  | some source => Decode.mergeNodes source

/-- The entries of mappings, those of each followed by those of the mappings it merges. -/
inductive Spreads (anchors : List (Nat × Node)) : List Node → List (Node × Node) → Prop
  | nil : Spreads anchors [] []
  | cons {node : Node} {nodes : List Node} {line : Nat} {tag : Bytes}
      {entries inner outer : List (Node × Node)}
      (mapping : node.behind anchors = .mapping line tag entries)
      (merged : Spreads anchors (mergeSources entries) inner) (rest : Spreads anchors nodes outer) :
      Spreads anchors (node :: nodes) (entries ++ inner ++ outer)

/-- The entries that a node comes to with all it merges are determined. -/
theorem Spreads.unique {nodes : List Node} {entries entries' : List (Node × Node)}
    (h : Spreads anchors nodes entries) (h' : Spreads anchors nodes entries') :
    entries = entries' := by
  induction h generalizing entries' with
  | nil =>
    cases h'
    rfl
  | cons mapping _ _ ihMerged ihRest =>
    obtain _ | ⟨mapping', merged', rest'⟩ := h'
    cases mapping.symm.trans mapping'
    rw [ihMerged merged', ihRest rest']

/-- The entries of a node, none if it is not there or no mapping. -/
def HasEntries (anchors : List (Nat × Node)) (node : Option Node) : List (Node × Node) → Prop :=
  Spreads anchors (node.toList.filter (Decode.isMergeSource anchors))

/-- What may be merged is a mapping, or a reference to one. -/
theorem isMergeSource_iff {node : Node} :
    Decode.isMergeSource anchors node = true ↔
      ∃ line tag entries, node.behind anchors = .mapping line tag entries := by
  unfold Decode.isMergeSource
  rcases node.behind anchors with _ | _ | ⟨line, tag, entries⟩ | _
  · exact iff_of_false nofun nofun
  · exact iff_of_false nofun nofun
  · exact iff_of_true rfl ⟨line, tag, entries, rfl⟩
  · exact iff_of_false nofun nofun

/-- What is no mapping has no entries. -/
theorem hasEntries_of_not_mapping {node : Node} (h : Decode.isMergeSource anchors node = false) :
    HasEntries anchors (some node) [] := by
  unfold HasEntries
  rw [Option.toList_some, List.filter_cons_of_neg (ne_true_of_eq_false h)]
  exact .nil

/-- A mapping has its own entries, followed by those of the mappings it merges. -/
theorem hasEntries_of_mapping {node : Node} {line : Nat} {tag : Bytes}
    {entries inner : List (Node × Node)}
    (hmapping : node.behind anchors = .mapping line tag entries)
    (hinner : Spreads anchors (mergeSources entries) inner) :
    HasEntries anchors (some node) (entries ++ inner) := by
  have hsource := isMergeSource_iff.2 ⟨line, tag, entries, hmapping⟩
  unfold HasEntries
  rw [Option.toList_some, List.filter_cons_of_pos hsource, ← List.append_nil (entries ++ inner)]
  exact .cons hmapping hinner .nil

namespace Decode

variable {σ β : Type} {s s' : Decoding} {t : Target σ} {names : List Bytes}

/-! ### Merged mappings -/

/-- What becomes of a part of the whole, and of the keys that are taken, while mappings are merged
that set its field to a node, or do not set it. -/
structure Target.Merges (t : Target σ) (anchors : List (Nat × Node)) (name : Bytes) (get : σ → β)
    (value : Option Node) (keys keys' : List OptionValue) (whole whole' : σ) : Prop where
  taken : .text name ∈ keys' ↔ .text name ∈ keys ∨ value.isSome = true
  closed : .text name ∈ keys → get whole' = get whole
  sets : .text name ∉ keys → t.Sets anchors name get value whole whole'

/-- Without entries nothing is set and nothing is taken. -/
theorem Target.merges_nothing {get : σ → β} (keys : List OptionValue) (whole : σ) :
    t.Merges anchors name get none keys keys whole whole where
  taken := ⟨.inl, fun h ↦ h.resolve_right nofun⟩
  closed _ := rfl
  sets _ := .unset rfl

/-- Entries that are followed by others set a field, or else the others do. -/
theorem Target.Merges.append {get : σ → β} {entries' : List (Node × Node)}
    {keys keys₁ keys' : List OptionValue} {whole whole₁ whole' : σ}
    (h : t.Merges anchors name get (field? anchors name entries) keys keys₁ whole whole₁)
    (h' : t.Merges anchors name get (field? anchors name entries') keys₁ keys' whole₁ whole') :
    t.Merges anchors name get (field? anchors name (entries ++ entries')) keys keys' whole whole' := by
  rw [field?_append]
  constructor
  case taken =>
    rw [h'.taken, h.taken, Option.isSome_or, Bool.or_eq_true, or_assoc]
  case closed =>
    intro hmem
    exact (h'.closed (h.taken.2 (.inl hmem))).trans (h.closed hmem)
  case sets =>
    intro hmem
    rcases hfield : field? anchors name entries with _ | value
    · rw [hfield] at h
      obtain ⟨hsame⟩ := h.sets hmem
      have hmem₁ : .text name ∉ keys₁ := by
        rw [h.taken]
        exact fun h ↦ h.elim hmem nofun
      exact (h'.sets hmem₁).of_before hsame
    · rw [hfield] at h
      exact (h.sets hmem).of_behind (h'.closed (h.taken.2 (.inr rfl)))

/-- The entries of a mapping itself, whether it is being merged or not. -/
theorem Runs.ownEntries (ht : t.TextKeyed) {whole whole' : σ}
    (h : Runs (ownEntries t entries whole) s whole' s') :
    ∃ done, EntersAll t s.anchors entries (s.merged, [], whole) (s'.merged, done, whole') := by
  obtain ⟨taken, done, s₁, hrun, rfl⟩ := run_ownEntries h.run
  have henters := Runs.entriesFrom ht rfl ⟨hrun, h.quiet⟩
  exact ⟨done, henters⟩

/-- A mapping that is no part of a merge. -/
theorem Runs.ownEntries_of_none (ht : t.TextKeyed) {whole whole' : σ} (hs : s.merged = none)
    (h : Runs (Decode.ownEntries t entries whole) s whole' s') :
    ∃ done, EntersAll t s.anchors entries (none, [], whole) (none, done, whole') := by
  obtain ⟨done, henters⟩ := h.ownEntries ht
  rw [hs, (ht.steady.ownEntries _ _).merged h.run hs] at henters
  exact ⟨done, henters⟩

/-- The entries of a mapping itself keep what each of them keeps. -/
theorem Runs.ownEntries_keeps (ht : t.Steady) {P : σ → Prop} (hkeeps : t.Keeps s.anchors entries P)
    {whole whole' : σ} (h : Runs (Decode.ownEntries t entries whole) s whole' s') (hP : P whole) :
    P whole' := by
  obtain ⟨taken, done, s₁, hrun, rfl⟩ := run_ownEntries h.run
  exact Runs.entriesFrom_keeps (s := { s with merged := none }) ht hkeeps rfl ⟨hrun, h.quiet⟩ hP

/-- The entries of a mapping that is merged set a field if its name is not taken. -/
theorem EntersAll.merges (ht : t.HasFields names) {get : σ → β} (hget : t.Field names name get)
    {keys keys' done : List OptionValue} {whole whole' : σ}
    (h : EntersAll t anchors entries (some keys, [], whole) (some keys', done, whole')) :
    t.Merges anchors name get (field? anchors name entries) keys keys' whole whole' := by
  obtain ⟨_, ⟨⟩, htaken⟩ := h.taken name rfl
  refine ⟨htaken, fun hmem ↦ ?_, fun hmem ↦ ?_⟩
  · exact h.closed ht hget fun hopen ↦ isFree_some_iff.1 hopen.1 hmem
  · exact h.sets ht hget ⟨isFree_some_iff.2 hmem, List.not_mem_nil⟩

/-- A mapping that is merged is decoded by its entries. -/
theorem Runs.mergedMapping {decode : List (Node × Node) → σ → Decode σ}
    (hdecode : ∀ entries whole, Steady (decode entries whole)) {node : Node} {whole whole' : σ}
    (hnode : isMergeSource s.anchors node = true)
    (h : Runs (mergedMapping decode node whole) s whole' s') :
    ∃ line tag entries s₁ s₂, node.behind s.anchors = .mapping line tag entries ∧
      Runs (decode entries whole) s₁ whole' s₂ ∧ s₁.anchors = s.anchors ∧
      s₁.merged = s.merged ∧ s₂.merged = s'.merged := by
  obtain ⟨s₁, s₂, hrun, hanchors, hmerged, hmerged'⟩ := h.visit
  obtain ⟨line, tag, entries, hbehind⟩ := isMergeSource_iff.1 hnode
  rw [hbehind] at hrun
  obtain ⟨differ, t₁, hkeys, hdecoded⟩ := hrun.bind (steady_keysDiffer _) fun _ ↦
    steady_ite (hdecode _ _) (steady_pure _)
  obtain ⟨rfl, rfl⟩ := hkeys.keysDiffer
  exact ⟨line, tag, entries, t₁, s₂, hbehind, hdecoded, hanchors, hmerged, hmerged'⟩

/-- Of several mappings that are merged the first one is, and then the others. -/
theorem Runs.mergeAll_cons {decode : Node → σ → Decode σ}
    (hdecode : ∀ node whole, Steady (decode node whole)) {node : Node} {nodes : List Node}
    {whole whole' : σ} (h : Runs (mergeAll decode (node :: nodes) whole) s whole' s') :
    isMergeSource s.anchors node = true ∧ ∃ whole₁ s₁, Runs (decode node whole) s whole₁ s₁ ∧
      Runs (mergeAll decode nodes whole₁) s₁ whole' s' := by
  obtain ⟨hnode, hrun⟩ | ⟨-, hrun⟩ := Runs.ite_anchors (isMergeSource · node) h
  · exact ⟨hnode, hrun.bind (hdecode _ _) fun _ ↦ steady_mergeAll hdecode _ _⟩
  · exact absurd hrun (not_runs_throw _)

/-- A law of merging: it relates the keys that are taken and the whole before some entries to those
behind them, and may be followed from one mapping to the next. -/
structure Target.Law (t : Target σ) (anchors : List (Nat × Node))
    (R : List (Node × Node) → List OptionValue → σ → List OptionValue → σ → Prop) : Prop where
  nil (keys : List OptionValue) (whole : σ) : R [] keys whole keys whole
  append {entries entries' : List (Node × Node)} {keys keys₁ keys' : List OptionValue}
    {whole whole₁ whole' : σ} : R entries keys whole keys₁ whole₁ →
      R entries' keys₁ whole₁ keys' whole' → R (entries ++ entries') keys whole keys' whole'
  own {s s' : Decoding} {entries : List (Node × Node)} {keys keys' : List OptionValue}
    {whole whole' : σ} : s.anchors = anchors → s.merged = some keys → s'.merged = some keys' →
      Runs (ownEntries t entries whole) s whole' s' → R entries keys whole keys' whole'

/-- Where keys are texts, what the entries of one mapping do is known. -/
theorem Target.TextKeyed.own (ht : t.TextKeyed) {keys keys' : List OptionValue} {whole whole' : σ}
    (hanchors : s.anchors = anchors) (hs : s.merged = some keys) (hs' : s'.merged = some keys')
    (h : Runs (Decode.ownEntries t entries whole) s whole' s') :
    ∃ done, EntersAll t anchors entries (some keys, [], whole) (some keys', done, whole') := by
  obtain ⟨done, henters⟩ := h.ownEntries ht
  rw [hanchors, hs, hs'] at henters
  exact ⟨done, henters⟩

/-- The first entry of a name sets a field: a law of merging. -/
theorem Target.law_merges (ht : t.HasFields names) {get : σ → β} (hget : t.Field names name get) :
    t.Law anchors fun entries keys whole keys' whole' ↦
      t.Merges anchors name get (field? anchors name entries) keys keys' whole whole' where
  nil := t.merges_nothing
  append := Merges.append
  own hanchors hs hs' h := by
    obtain ⟨done, henters⟩ := ht.own hanchors hs hs' h
    exact henters.merges ht hget

/-- What every entry keeps is kept: a law of merging. -/
theorem Target.law_keeps (ht : t.Steady) :
    t.Law anchors fun entries _ whole _ whole' ↦
      ∀ P, t.Keeps anchors entries P → P whole → P whole' where
  nil _ _ _ _ hP := hP
  append h h' P hkeeps hP :=
    h' P (hkeeps.mono (List.subset_append_right _ _))
      (h P (hkeeps.mono (List.subset_append_left _ _)) hP)
  own hanchors _ _ h _ hkeeps hP := h.ownEntries_keeps ht (hanchors ▸ hkeeps) hP

/-- What is given at a name is not lost: a law of merging. -/
theorem Target.law_fills (ht : t.TextKeyed) {Given : Node → Prop} {Q : σ → Prop}
    (hfills : t.Fills anchors name Given Q) :
    t.Law anchors fun entries keys whole keys' whole' ↦
      (.text name ∈ keys' ↔ .text name ∈ keys ∨ (field? anchors name entries).isSome = true) ∧
        (Q whole → Q whole') ∧
          (.text name ∉ keys → ∀ value, field? anchors name entries = some value → Given value →
            Q whole') where
  nil keys _ := ⟨⟨.inl, fun h ↦ h.resolve_right nofun⟩, id, fun _ ↦ nofun⟩
  append := by
    intro entries entries' keys keys₁ keys' whole whole₁ whole' h h'
    obtain ⟨htaken, hkeeps, hgiven⟩ := h
    obtain ⟨htaken', hkeeps', hgiven'⟩ := h'
    rw [field?_append]
    refine ⟨?_, hkeeps' ∘ hkeeps, fun hmem value hvalue hvalueGiven ↦ ?_⟩
    · rw [htaken', htaken, Option.isSome_or, Bool.or_eq_true, or_assoc]
    · rcases hfield : field? anchors name entries with _ | found
      · rw [hfield] at hvalue htaken
        have hmem₁ : .text name ∉ keys₁ := fun h ↦ (htaken.1 h).elim hmem nofun
        exact hgiven' hmem₁ value hvalue hvalueGiven
      · rw [hfield] at hvalue
        cases hvalue
        exact hkeeps' (hgiven hmem value hfield hvalueGiven)
  own := by
    intro s s' entries keys keys' whole whole' hanchors hs hs' h
    obtain ⟨done, henters⟩ := ht.own hanchors hs hs' h
    obtain ⟨_, ⟨⟩, htaken⟩ := henters.taken name rfl
    exact ⟨htaken, henters.keeps (hfills.keeps entries),
      fun hmem value hvalue ↦ henters.fills hfills (isFree_some_iff.2 hmem) hvalue⟩

/-- While mappings are merged, none merge anew. -/
theorem Runs.mergeOthers_of_some {anyKey : Node → Decode (Option OptionValue)}
    {decode : Node → σ → Decode σ} {keys : List OptionValue} {whole whole' : σ}
    (hs : s.merged = some keys) (h : Runs (mergeOthers anyKey decode entries whole) s whole' s') :
    Runs (mergeAll decode (mergeSources entries) whole) s whole' s' := by
  unfold mergeOthers at h
  unfold mergeSources
  rcases hsource : mergeEntry? entries with _ | source
  · rw [hsource] at h
    exact h
  · rw [hsource] at h
    exact ⟨run_merge_of_some hs h.run, h.quiet⟩

section Law

variable {R : List (Node × Node) → List OptionValue → σ → List OptionValue → σ → Prop}

/-- A law of merging holds of mappings that are merged if it holds of the entries of each. -/
theorem Runs.mergeAll {decode : List (Node × Node) → σ → Decode σ}
    (hdecode : ∀ entries whole, Steady (decode entries whole)) (hR : t.Law anchors R)
    (hentries : ∀ {s s' entries keys whole whole'}, s.anchors = anchors → s.merged = some keys →
      Runs (decode entries whole) s whole' s' →
        ∃ inner keys', Spreads anchors (mergeSources entries) inner ∧ s'.merged = some keys' ∧
          R (entries ++ inner) keys whole keys' whole')
    {nodes : List Node} {keys : List OptionValue} {whole whole' : σ} (hanchors : s.anchors = anchors)
    (hs : s.merged = some keys)
    (h : Runs (Decode.mergeAll (Decode.mergedMapping decode) nodes whole) s whole' s') :
    ∃ entries keys', Spreads anchors nodes entries ∧ s'.merged = some keys' ∧
      R entries keys whole keys' whole' := by
  induction nodes generalizing s keys whole with
  | nil =>
    obtain ⟨rfl, rfl⟩ := Runs.pure_iff.1 h
    exact ⟨[], keys, .nil, hs, hR.nil keys _⟩
  | cons node nodes ih =>
    have hsteady := steady_mergedMapping hdecode
    obtain ⟨hnode, whole₁, s₁, hfirst, hrest⟩ := h.mergeAll_cons hsteady
    have hanchors₁ := (hsteady node whole).anchors hfirst.run
    obtain ⟨line, tag, entries, t₁, t₂, hmapping, hrun, ht₁, ht₁', ht₂⟩ :=
      hfirst.mergedMapping hdecode hnode
    obtain ⟨inner, keys₁, hinner, hkeys₁, hfirstR⟩ :=
      hentries (ht₁.trans hanchors) (ht₁'.trans hs) hrun
    obtain ⟨outer, keys', houter, hkeys', hrestR⟩ :=
      ih (hanchors₁.trans hanchors) (ht₂.symm.trans hkeys₁) hrest
    rw [hanchors] at hmapping
    exact ⟨entries ++ inner ++ outer, keys', .cons hmapping hinner houter, hkeys',
      hR.append hfirstR hrestR⟩

/-- A law of merging holds of a mapping that is being merged with those that it merges itself. -/
theorem Runs.mappingEntries_of_some (ht : t.Steady) (hR : t.Law anchors R) {fuel depth : Nat}
    {keys : List OptionValue} {whole whole' : σ} (hanchors : s.anchors = anchors)
    (hs : s.merged = some keys)
    (h : Runs (mappingEntries (any depth) t fuel t entries whole) s whole' s') :
    ∃ inner keys', Spreads anchors (mergeSources entries) inner ∧ s'.merged = some keys' ∧
      R (entries ++ inner) keys whole keys' whole' := by
  induction fuel generalizing s s' entries keys whole whole' with
  | zero => exact absurd h (not_runs_throw _)
  | succ fuel ih =>
    have hsteady := ht.mappingEntries (steady_any depth) fuel ht
    obtain ⟨whole₁, s₁, hown, hothers⟩ := h.bind (ht.ownEntries _ _) fun _ ↦
      steady_mergeOthers (steady_any depth) (steady_mergedMapping hsteady) _ _
    have hanchors₁ := (ht.ownEntries _ _).anchors hown.run
    have hsome := ownEntries_taken hown.run
    rw [hs, Option.isSome_some] at hsome
    obtain ⟨keys₁, hkeys₁⟩ := Option.isSome_iff_exists.1 hsome
    obtain ⟨inner, keys', hinner, hkeys', hinnerR⟩ :=
      (hothers.mergeOthers_of_some hkeys₁).mergeAll hsteady hR ih (hanchors₁.trans hanchors) hkeys₁
    exact ⟨inner, keys', hinner, hkeys', hR.append (hR.own hanchors hs hkeys₁ hown) hinnerR⟩

end Law

theorem isPlainText_merge : IsPlainText (utf8 "<<") :=
  fun _ ↦ rfl

/-- The key that merges mappings has no other text. -/
theorem text?_of_isMerge {node : Node} (hmerge : node.isMerge = true)
    (h : node.text? anchors = some name) : name = utf8 "<<" := by
  rcases node with ⟨line, tag, literal, written⟩ | _ | _ | _
  case scalar =>
    obtain ⟨hwritten, htag⟩ := Bool.and_eq_true_iff.1 hmerge
    obtain rfl := eq_of_beq hwritten
    have hbinary : shortTag tag ≠ binaryTag := by
      rcases Bool.or_eq_true_iff.1 htag with htag | htag
      · rcases Bool.or_eq_true_iff.1 htag with htag | htag
        · rw [List.isEmpty_iff.1 htag]
          decide
        · rw [eq_of_beq htag]
          decide
      · rw [eq_of_beq htag]
        decide
    rcases hvalue : Decode.scalarValue tag literal (utf8 "<<") with fault | ⟨found, v⟩
    · unfold Node.text? Node.read? Node.value? Node.behind at h
      dsimp only at h
      rw [hvalue] at h
      cases h
    · obtain ⟨s, rfl, hs⟩ := isPlainText_merge.scalarValue hvalue
      have hnull : OptionValue.text s ≠ .null := by
        intro hnull
        cases hnull
      rw [Node.text?, Node.read?_of_value? (Node.value?_of_scalarValue rfl hvalue) hnull] at h
      cases h
      exact hs hbinary
  all_goals cases hmerge

/-- Beside the key that merges other mappings, a key is a field if it has its text. -/
theorem isNamed_iff (hne : name ≠ utf8 "<<") (entry : Node × Node) :
    isNamed anchors name entry = true ↔ entry.1.text? anchors = some name := by
  constructor
  · intro h
    exact eq_of_beq (Bool.and_eq_true_iff.1 h).2
  · intro h
    exact isNamed_of_text? (fun hmerge ↦ hne (text?_of_isMerge hmerge h)) h

/-- The keys that are taken by the outermost mapping are the values of its keys. -/
theorem Runs.takenKeys {depth : Nat} {taken keys : List OptionValue}
    (h : Runs (takenKeys (any depth) entries taken) s keys s') :
    .text name ∈ keys ↔ .text name ∈ taken ∨
      ∃ entry ∈ entries, ∃ written, entry.1.value? s.anchors = some (.text name, written) := by
  induction entries generalizing s taken with
  | nil =>
    obtain ⟨rfl, -⟩ := Runs.pure_iff.1 h
    simp only [List.not_mem_nil, false_and, exists_false, or_false]
  | cons entry entries ih =>
    obtain ⟨v, s₁, hany, h⟩ := h.bind (steady_any depth entry.1) fun v ↦ by
      rcases v with _ | v
      · exact steady_takenKeys (steady_any depth) _ _
      · exact steady_ite (steady_throw _) (steady_takenKeys (steady_any depth) _ _)
    have hanchors := (steady_any depth entry.1).anchors hany.run
    have hvalue := hany.any_eq_text_iff name
    rw [← hanchors] at hvalue ⊢
    simp only [List.mem_cons, exists_eq_or_imp, ← hvalue]
    rcases v with _ | v
    · rw [ih h]
      simp only [reduceCtorEq, false_or]
    · dsimp only at h
      split at h
      · exact absurd h (not_runs_throw _)
      · rw [ih h, List.mem_cons, Option.some_inj, eq_comm, or_assoc, or_left_comm]

/-- A name that a mapping has taken is that of one of its entries. -/
theorem Runs.field?_of_mem_takenKeys (hne : name ≠ utf8 "<<") {depth : Nat}
    {keys : List OptionValue} (h : Runs (Decode.takenKeys (any depth) entries []) s keys s')
    (hmem : .text name ∈ keys) : (field? s.anchors name entries).isSome = true := by
  obtain hmem | ⟨entry, hentry, written, hvalue⟩ := h.takenKeys.1 hmem
  · exact absurd hmem List.not_mem_nil
  · exact field?_isSome_iff.2
      ⟨entry, hentry, (isNamed_iff hne entry).2 (Node.text?_of_value? hvalue)⟩

/-- The name of an entry is taken by its mapping. -/
theorem Runs.mem_takenKeys_of_field? (hname : IsPlainText name) {depth : Nat}
    {keys : List OptionValue} (h : Runs (Decode.takenKeys (any depth) entries []) s keys s')
    (hfield : (field? s.anchors name entries).isSome = true) : .text name ∈ keys := by
  obtain ⟨entry, hentry, hnamed⟩ := field?_isSome_iff.1 hfield
  have htext := eq_of_beq (Bool.and_eq_true_iff.1 hnamed).2
  exact h.takenKeys.2 (.inr ⟨entry, hentry, (Node.text?_eq_some_iff hname).1 htext⟩)

/-- The outermost mapping takes its own keys first, if it merges others. -/
theorem Runs.mergeOthers_of_none {anyKey : Node → Decode (Option OptionValue)}
    {decode : Node → σ → Decode σ} (hany : ∀ node, Steady (anyKey node))
    (hdecode : ∀ node whole, Steady (decode node whole)) {whole whole' : σ} (hs : s.merged = none)
    (h : Runs (mergeOthers anyKey decode entries whole) s whole' s') :
    (mergeSources entries = [] ∧ whole' = whole) ∨
      ∃ keys s₁ s₂, Runs (Decode.takenKeys anyKey entries []) s keys s₁ ∧
        Runs (Decode.mergeAll decode (mergeSources entries) whole)
          { s₁ with merged := some keys } whole' s₂ := by
  unfold mergeOthers at h
  unfold mergeSources
  rcases hsource : mergeEntry? entries with _ | source
  · rw [hsource] at h
    exact .inl ⟨rfl, (Runs.pure_iff.1 h).1⟩
  · rw [hsource] at h
    obtain ⟨keys, s₁, s₂, htaken, hall, rfl⟩ := run_merge_of_none hs h.run
    have hle := (steady_takenKeys hany _ _).mismatches htaken
    have hle' := (steady_mergeAll hdecode _ _).mismatches hall
    have hquiet : s₂.mismatches = s.mismatches := h.quiet
    dsimp only at hle'
    rw [hquiet] at hle'
    have hquiet₁ : s₁.mismatches = s.mismatches := hle'.eq_of_length_le hle.length_le
    exact .inr ⟨keys, s₁, s₂, ⟨htaken, hquiet₁⟩, hall, hquiet.trans hquiet₁.symm⟩

/-- The entries of a mapping that is no part of a merge are followed by those it merges, of which a
law of merging holds. -/
theorem Runs.mappingEntries_of_none {merged : Target σ} (ht : t.Steady) (hmerged : merged.Steady)
    {R : List (Node × Node) → List OptionValue → σ → List OptionValue → σ → Prop}
    (hR : merged.Law s.anchors R) {fuel depth : Nat} {whole whole' : σ} (hs : s.merged = none)
    (h : Runs (mappingEntries (any depth) merged fuel t entries whole) s whole' s') :
    ∃ inner whole₁ s₁, Spreads s.anchors (mergeSources entries) inner ∧
      Runs (Decode.ownEntries t entries whole) s whole₁ s₁ ∧
      ((inner = [] ∧ whole' = whole₁) ∨ ∃ keys keys' s₂, s₁.anchors = s.anchors ∧
        Runs (Decode.takenKeys (any depth) entries []) s₁ keys s₂ ∧
        R inner keys whole₁ keys' whole') := by
  rcases fuel with _ | fuel
  · exact absurd h (not_runs_throw _)
  · have hsteady := hmerged.mappingEntries (steady_any depth) fuel hmerged
    obtain ⟨whole₁, s₁, hown, hothers⟩ := h.bind (ht.ownEntries _ _) fun _ ↦
      steady_mergeOthers (steady_any depth) (steady_mergedMapping hsteady) _ _
    have hanchors := (ht.ownEntries _ _).anchors hown.run
    have hs₁ := (ht.ownEntries _ _).merged hown.run hs
    obtain ⟨hsources, rfl⟩ | ⟨keys, s₂, s₃, htaken, hall⟩ :=
      hothers.mergeOthers_of_none (steady_any depth) (steady_mergedMapping hsteady) hs₁
    · rw [hsources]
      exact ⟨[], _, s₁, .nil, hown, .inl ⟨rfl, rfl⟩⟩
    · have hanchors₂ := (steady_takenKeys (steady_any depth) _ _).anchors htaken.run
      obtain ⟨inner, keys', hinner, -, hinnerR⟩ := Runs.mergeAll
        (s := { s₂ with merged := some keys }) hsteady hR
        (fun hanchors hs h ↦ h.mappingEntries_of_some hmerged hR hanchors hs)
        (hanchors₂.trans hanchors) rfl hall
      exact ⟨inner, whole₁, s₁, hinner, hown, .inr ⟨keys, keys', s₂, hanchors, htaken, hinnerR⟩⟩

/-- The first entry of a name sets the field of a structure. -/
theorem Runs.mappingEntries (ht : t.HasFields names) {get : σ → β} (hget : t.Field names name get)
    {fuel depth : Nat} {whole whole' : σ} (hs : s.merged = none)
    (h : Runs (mappingEntries (any depth) t fuel t entries whole) s whole' s') :
    ∃ inner, Spreads s.anchors (mergeSources entries) inner ∧
      t.Sets s.anchors name get (field? s.anchors name (entries ++ inner)) whole whole' := by
  obtain ⟨inner, whole₁, s₁, hinner, hown, hrest⟩ :=
    h.mappingEntries_of_none ht.steady ht.steady (t.law_merges ht hget) hs
  obtain ⟨done, henters⟩ := hown.ownEntries_of_none ht.toTextKeyed hs
  have hsets := henters.sets ht hget ⟨nofun, List.not_mem_nil⟩
  refine ⟨inner, hinner, ?_⟩
  obtain ⟨rfl, rfl⟩ | ⟨keys, keys', s₂, hanchors, htaken, hmerges⟩ := hrest
  · rw [List.append_nil]
    exact hsets
  · have hmem := htaken.mem_takenKeys_of_field? hget.plain
    have hfield' := htaken.field?_of_mem_takenKeys hget.unmerged
    rw [hanchors] at hmem hfield'
    rw [field?_append]
    rcases hfield : field? s.anchors name entries with _ | value
    · rw [hfield] at hsets hfield'
      obtain ⟨hsame⟩ := hsets
      refine (hmerges.sets fun h ↦ ?_).of_before hsame
      exact Bool.false_ne_true (hfield' h)
    · rw [hfield] at hsets hmem
      exact hsets.of_behind (hmerges.closed (hmem rfl))

/-- Whatever the entries of a mapping and of those it merges keep is kept. -/
theorem Runs.mappingEntries_keeps {merged : Target σ} (ht : t.Steady) (hmerged : merged.Steady)
    {fuel depth : Nat} {whole whole' : σ} (hs : s.merged = none)
    (h : Runs (Decode.mappingEntries (any depth) merged fuel t entries whole) s whole' s') :
    ∃ inner, Spreads s.anchors (mergeSources entries) inner ∧
      ∀ P, t.Keeps s.anchors (entries ++ inner) P → merged.Keeps s.anchors (entries ++ inner) P →
        P whole → P whole' := by
  obtain ⟨inner, whole₁, s₁, hinner, hown, hrest⟩ :=
    h.mappingEntries_of_none ht hmerged (merged.law_keeps hmerged) hs
  refine ⟨inner, hinner, fun P hkeeps hkeeps' hP ↦ ?_⟩
  have hP₁ : P whole₁ := hown.ownEntries_keeps ht (hkeeps.mono (List.subset_append_left _ _)) hP
  obtain ⟨rfl, rfl⟩ | ⟨keys, keys', s₂, -, -, hinnerR⟩ := hrest
  · exact hP₁
  · exact hinnerR P (hkeeps'.mono (List.subset_append_right _ _)) hP₁

/-- What is given at a name by a mapping or those it merges is not lost. -/
theorem Runs.mappingEntries_fills {merged : Target σ} {Given : Node → Prop} {Q : σ → Prop}
    (ht : t.TextKeyed) (hmerged : merged.TextKeyed) (hfills : t.Fills s.anchors name Given Q)
    (hfills' : merged.Fills s.anchors name Given Q) (hne : name ≠ utf8 "<<") {fuel depth : Nat}
    {whole whole' : σ} (hs : s.merged = none)
    (h : Runs (Decode.mappingEntries (any depth) merged fuel t entries whole) s whole' s') :
    ∃ inner, Spreads s.anchors (mergeSources entries) inner ∧
      ∀ value, field? s.anchors name (entries ++ inner) = some value → Given value → Q whole' := by
  obtain ⟨inner, whole₁, s₁, hinner, hown, hrest⟩ :=
    h.mappingEntries_of_none ht.steady hmerged.steady (merged.law_fills hmerged hfills') hs
  obtain ⟨done, henters⟩ := hown.ownEntries_of_none ht hs
  refine ⟨inner, hinner, fun value hvalue hgiven ↦ ?_⟩
  rw [field?_append] at hvalue
  rcases hfield : field? s.anchors name entries with _ | found
  · rw [hfield] at hvalue
    obtain ⟨rfl, -⟩ | ⟨keys, keys', s₂, hanchors, htaken, -, -, hinnerGiven⟩ := hrest
    · cases hvalue
    · have hmem : .text name ∉ keys := by
        intro hmem
        have hsome := htaken.field?_of_mem_takenKeys hne hmem
        rw [hanchors, hfield] at hsome
        cases hsome
      exact hinnerGiven hmem value hvalue hgiven
  · rw [hfield] at hvalue
    cases hvalue
    have hown : Q whole₁ := henters.fills hfills nofun hfield hgiven
    obtain ⟨-, rfl⟩ | ⟨keys, keys', s₂, -, -, -, hkeeps, -⟩ := hrest
    · exact hown
    · exact hkeeps hown

/-! ### Structures and documents -/

/-- A mapping is decoded by its entries; null changes nothing, and nothing else fits. -/
theorem Runs.fields_cases (ht : t.TextKeyed) {fuel : Nat} {type : Bytes} {node : Node} {whole : σ}
    {r : σ × Bool} (h : Runs (fields fuel t type node whole) s r s') :
    (isMergeSource s.anchors node = false ∧ r = (whole, false)) ∨
      ∃ line tag entries whole' s₁ s₂, node.behind s.anchors = .mapping line tag entries ∧
        r = (whole', true) ∧ s₁.anchors = s.anchors ∧ s₁.merged = s.merged ∧
        Runs (Decode.mappingEntries (any fuel) t fuel t entries whole) s₁ whole' s₂ := by
  obtain ⟨s₁, s₂, hrun, hanchors, hmerged, -⟩ := h.visit
  have hsteady := ht.steady.mappingEntries (steady_any fuel) fuel ht.steady
  rcases hbehind : node.behind s.anchors with ⟨line, tag, literal, written⟩ | ⟨line, tag, items⟩ |
    ⟨line, tag, entries⟩ | _
  · rw [hbehind] at hrun
    obtain ⟨⟨found, v⟩, -, hrun⟩ := hrun.liftM_bind
    split at hrun
    case h_1 =>
      refine .inl ⟨?_, (Runs.pure_iff.1 hrun).1⟩
      unfold isMergeSource
      rw [hbehind]
    case h_2 => exact absurd hrun (not_runs_misfit_bind (steady_pure _) nofun)
  · rw [hbehind] at hrun
    exact absurd hrun (not_runs_misfit_bind (steady_pure _) nofun)
  · rw [hbehind] at hrun
    obtain ⟨differ, s₃, hkeys, hdecoded⟩ := hrun.bind (steady_keysDiffer _) fun _ ↦
      steady_ite ((hsteady _ _).bind fun _ ↦ steady_pure _) (steady_pure _)
    obtain ⟨rfl, rfl⟩ := hkeys.keysDiffer
    obtain ⟨whole', hentries, rfl⟩ := Runs.map (f := fun whole ↦ (whole, true)) hdecoded
      (hsteady _ _)
    exact .inr ⟨line, tag, entries, whole', s₃, s₂, rfl, rfl, hanchors, hmerged, hentries⟩
  · exact absurd hbehind (Node.behind_ne_reference _ _)

/-- A mapping is found to be one. -/
theorem Runs.fields_snd (ht : t.TextKeyed) {fuel : Nat} {type : Bytes} {node : Node} {whole : σ}
    {r : σ × Bool} (hnode : isMergeSource s.anchors node = true)
    (h : Runs (fields fuel t type node whole) s r s') : r.2 = true := by
  obtain ⟨hnot, -⟩ | ⟨_, _, _, _, _, _, -, rfl, -, -, -⟩ := h.fields_cases ht
  · exact absurd hnode (ne_true_of_eq_false hnot)
  · rfl

/-- What a node sets the fields of a structure to. -/
theorem Runs.fields (ht : t.HasFields names) {get : σ → β} (hget : t.Field names name get)
    {fuel : Nat} {type : Bytes} {node : Node} {whole : σ} {r : σ × Bool} (hs : s.merged = none)
    (h : Runs (fields fuel t type node whole) s r s') :
    ∃ entries, HasEntries s.anchors (some node) entries ∧
      t.Sets s.anchors name get (field? s.anchors name entries) whole r.1 := by
  obtain ⟨hnot, rfl⟩ | ⟨line, tag, entries, whole', s₁, s₂, hbehind, rfl, hanchors, hmerged,
    hentries⟩ := h.fields_cases ht.toTextKeyed
  · exact ⟨[], hasEntries_of_not_mapping hnot, .unset rfl⟩
  · obtain ⟨inner, hinner, hsets⟩ := hentries.mappingEntries ht hget (hmerged.trans hs)
    rw [hanchors] at hinner hsets
    exact ⟨entries ++ inner, hasEntries_of_mapping hbehind hinner, hsets⟩

end Decode

/-- The root of a document is decoded at the start, if there is one, and everything in it fits. -/
theorem decodeDocument_eq_ok {σ : Type} {document : Document} {decode : Node → σ → Decode σ}
    {start value : σ} (h : decodeDocument document decode start = .ok value) :
    (document.root = none ∧ value = start) ∨
      ∃ root, document.root = some root ∧
        Decode.Decoded document.anchors (decode root start) value := by
  unfold decodeDocument at h
  rcases hroot : document.root with _ | root
  · rw [hroot] at h
    cases h
    exact .inl ⟨rfl, rfl⟩
  · rw [hroot] at h
    dsimp only at h
    rcases hrun : (decode root start).run (.atRoot document) with fault | ⟨value', s'⟩
    · rw [hrun] at h
      cases h
    · rw [hrun] at h
      change (if s'.mismatches.isEmpty then Except.ok value' else _) = _ at h
      split at h
      case isTrue hquiet =>
        cases h
        exact .inr ⟨root, rfl, .atRoot document, s', rfl, rfl, hrun, List.isEmpty_iff.1 hquiet⟩
      case isFalse => cases h

/-- What a document sets the fields of its root to. -/
theorem decodeDocument_fields {σ β : Type} {t : Decode.Target σ} {names : List Bytes} {get : σ → β}
    (ht : t.HasFields names) (hget : t.Field names name get) {fuel : Nat} {type : Bytes}
    {document : Document} {start value : σ}
    (h : decodeDocument document (fun node whole ↦ do
      return (← Decode.fields fuel t type node whole).1) start = .ok value) :
    ∃ entries, HasEntries document.anchors document.root entries ∧
      t.Sets document.anchors name get (field? document.anchors name entries) start value := by
  obtain ⟨hroot, rfl⟩ | ⟨root, hroot, s, s', hs, hmerged, hrun⟩ := decodeDocument_eq_ok h
  · rw [hroot]
    exact ⟨[], .nil, .unset rfl⟩
  · obtain ⟨r, hfields, rfl⟩ := hrun.map (ht.steady.fields fuel type root start)
    obtain ⟨entries, hentries, hsets⟩ := hfields.fields ht hget hmerged
    rw [hs] at hentries hsets
    rw [hroot]
    exact ⟨entries, hentries, hsets⟩

end ColonGap.Yaml
