import ColonGap.Yaml.Decode.Mapping

/-!
# Decoding depends on nodes alone

While a document is decoded, messages pile up and visits are counted. Decoding is steady (`Steady`)
if it does not matter what was decoded before: what it gives depends on the nodes that references
lead to and, inside a merged mapping, on the keys that are taken, and it only adds to what does not
fit. This is closed under running one step after another, so it is shown for each piece of the
decoder in turn.
-/

namespace ColonGap.Yaml.Decode

variable {α β σ : Type} {m : Decode α} {s s' : Decoding}

/-- A run of two steps succeeds if the first does and the second does from where the first ended. -/
theorem run_bind_ok {f : α → Decode β} {b : β} :
    (m >>= f).run s = .ok (b, s') ↔
      ∃ a s₁, m.run s = .ok (a, s₁) ∧ (f a).run s₁ = .ok (b, s') := by
  rw [StateT.run_bind]
  cases m.run s with
  | error e =>
    show Except.error e = _ ↔ _
    simp
  | ok r =>
    obtain ⟨a, s₁⟩ := r
    show (f a).run s₁ = _ ↔ _
    constructor
    · exact fun h ↦ ⟨a, s₁, rfl, h⟩
    · rintro ⟨_, _, h, hf⟩
      cases h
      exact hf

/-- Decoding leaves the anchors as they are, only adds to what does not fit, and merges nothing in
the end if it did not at the start. What it gives depends on the anchors and on the keys that are
taken, and on nothing else that happened before. -/
structure Steady (m : Decode α) : Prop where
  anchors {s s' : Decoding} {a : α} : m.run s = .ok (a, s') → s'.anchors = s.anchors
  mismatches {s s' : Decoding} {a : α} : m.run s = .ok (a, s') → s.mismatches <+: s'.mismatches
  merged {s s' : Decoding} {a : α} : m.run s = .ok (a, s') → s.merged = none → s'.merged = none
  same {s s' t t' : Decoding} {a b : α} : m.run s = .ok (a, s') → m.run t = .ok (b, t') →
    s.anchors = t.anchors → s.merged = t.merged → a = b ∧ s'.merged = t'.merged

theorem steady_pure (a : α) : Steady (pure a) where
  anchors h := by cases h; rfl
  mismatches h := by cases h; exact List.prefix_rfl
  merged h hs := by cases h; exact hs
  same h h' _ hmerged := by cases h; cases h'; exact ⟨rfl, hmerged⟩

theorem steady_throw (fault : Fault) : Steady (throw fault : Decode α) where
  anchors h := by cases h
  mismatches h := by cases h
  merged h := by cases h
  same h := by cases h

/-- One steady step after another is steady. -/
theorem Steady.bind {f : α → Decode β} (hm : Steady m) (hf : ∀ a, Steady (f a)) :
    Steady (m >>= f) where
  anchors h := by
    obtain ⟨a, s₁, h₁, h₂⟩ := run_bind_ok.1 h
    rw [(hf a).anchors h₂, hm.anchors h₁]
  mismatches h := by
    obtain ⟨a, s₁, h₁, h₂⟩ := run_bind_ok.1 h
    exact (hm.mismatches h₁).trans ((hf a).mismatches h₂)
  merged h hs := by
    obtain ⟨a, s₁, h₁, h₂⟩ := run_bind_ok.1 h
    exact (hf a).merged h₂ (hm.merged h₁ hs)
  same h h' hanchors hmerged := by
    obtain ⟨a, s₁, h₁, h₂⟩ := run_bind_ok.1 h
    obtain ⟨a', t₁, h₁', h₂'⟩ := run_bind_ok.1 h'
    obtain ⟨rfl, hmerged₁⟩ := hm.same h₁ h₁' hanchors hmerged
    refine (hf a).same h₂ h₂' ?_ hmerged₁
    rw [hm.anchors h₁, hm.anchors h₁', hanchors]

/-- A step that does not look at the state is steady. -/
theorem steady_liftM (x : Except Fault α) : Steady (liftM x : Decode α) := by
  cases x with
  | error fault => exact steady_throw fault
  | ok a => exact steady_pure a

/-- A choice between steady steps is steady if it does not depend on the state. -/
theorem steady_ite {p : Prop} [Decidable p] {m' : Decode α} (h : Steady m) (h' : Steady m') :
    Steady (if p then m else m') := by
  split
  · exact h
  · exact h'

/-- A step may look at the anchors. -/
theorem steady_ite_anchors (p : List (Nat × Node) → Bool) {m' : Decode α} (h : Steady m)
    (h' : Steady m') : Steady (do if p (← get).anchors then m else m') where
  anchors {s _ _} hrun := (steady_ite (p := p s.anchors) h h').anchors hrun
  mismatches {s _ _} hrun := (steady_ite (p := p s.anchors) h h').mismatches hrun
  merged {s _ _} hrun := (steady_ite (p := p s.anchors) h h').merged hrun
  same {s _ t _ _ _} hrun hrun' hanchors := by
    refine (steady_ite (p := p s.anchors) h h').same hrun ?_ hanchors
    rw [hanchors]
    exact hrun'

theorem steady_note (mismatch : Mismatch) : Steady (note mismatch) where
  anchors h := by cases h; rfl
  mismatches h := by cases h; exact List.prefix_append _ _
  merged h hs := by cases h; exact hs
  same h h' _ hmerged := by cases h; cases h'; exact ⟨rfl, hmerged⟩

/-- Counting a visit changes the counters and nothing else. -/
theorem run_countVisit {u : Unit} (h : countVisit.run s = .ok (u, s')) :
    ∃ visits referenced, s' = { s with visits := visits, referenced := referenced } := by
  obtain ⟨_, s₁, hget, h⟩ := run_bind_ok.1 h
  cases hget
  generalize s.referenced + (if s.following.isEmpty then 0 else 1) = referenced at h
  by_cases hexcessive : isExcessive (s.visits + 1) referenced = true
  · rw [if_pos hexcessive] at h
    cases h
  · rw [if_neg hexcessive] at h
    cases h
    exact ⟨_, _, rfl⟩

theorem steady_countVisit : Steady countVisit where
  anchors h := by obtain ⟨_, _, rfl⟩ := run_countVisit h; rfl
  mismatches h := by obtain ⟨_, _, rfl⟩ := run_countVisit h; exact List.prefix_rfl
  merged h hs := by obtain ⟨_, _, rfl⟩ := run_countVisit h; exact hs
  same h h' _ hmerged := by
    obtain ⟨_, _, rfl⟩ := run_countVisit h
    obtain ⟨_, _, rfl⟩ := run_countVisit h'
    exact ⟨rfl, hmerged⟩

/-- A visit decodes what the node stands for. -/
theorem run_visit {decode : Node → Decode α} {node : Node} {a : α}
    (h : (visit decode node).run s = .ok (a, s')) :
    ∃ s₁ s₂, (decode (node.behind s.anchors)).run s₁ = .ok (a, s₂) ∧
      s₁.anchors = s.anchors ∧ s₁.mismatches = s.mismatches ∧ s₁.merged = s.merged ∧
      s₂.anchors = s'.anchors ∧ s₂.mismatches = s'.mismatches ∧ s₂.merged = s'.merged := by
  obtain ⟨_, s₁, hcount, h⟩ := run_bind_ok.1 h
  obtain ⟨_, _, rfl⟩ := run_countVisit hcount
  match node with
  | .scalar .. | .sequence .. | .mapping .. => exact ⟨_, _, h, rfl, rfl, rfl, rfl, rfl, rfl⟩
  | .reference line name id number =>
    obtain ⟨_, _, hget, h⟩ := run_bind_ok.1 h
    cases hget
    dsimp only at h
    split at h
    case isTrue => cases h
    case isFalse =>
      obtain ⟨_, _, hset, h⟩ := run_bind_ok.1 h
      cases hset
      obtain ⟨_, _, hcount', h⟩ := run_bind_ok.1 h
      obtain ⟨_, _, rfl⟩ := run_countVisit hcount'
      obtain ⟨b, s₂, hdecode, h⟩ := run_bind_ok.1 h
      obtain ⟨_, _, hmodify, h⟩ := run_bind_ok.1 h
      cases hmodify
      cases h
      exact ⟨_, s₂, hdecode, rfl, rfl, rfl, rfl, rfl, rfl⟩

/-- To visit a node is steady if to decode what is behind it is. -/
theorem Steady.visit {decode : Node → Decode α} (h : ∀ node, Steady (decode node)) (node : Node) :
    Steady (visit decode node) where
  anchors hrun := by
    obtain ⟨s₁, s₂, hdecode, hanchors, -, -, hanchors', -, -⟩ := run_visit hrun
    rw [← hanchors', (h _).anchors hdecode, hanchors]
  mismatches hrun := by
    obtain ⟨s₁, s₂, hdecode, -, hmismatches, -, -, hmismatches', -⟩ := run_visit hrun
    rw [← hmismatches', ← hmismatches]
    exact (h _).mismatches hdecode
  merged hrun hs := by
    obtain ⟨s₁, s₂, hdecode, -, -, hmerged, -, -, hmerged'⟩ := run_visit hrun
    rw [← hmerged']
    exact (h _).merged hdecode (hmerged.trans hs)
  same hrun hrun' hanchors hmerged := by
    obtain ⟨s₁, s₂, hdecode, hs, -, hs', -, -, hsmerged⟩ := run_visit hrun
    obtain ⟨t₁, t₂, hdecode', ht, -, ht', -, -, htmerged⟩ := run_visit hrun'
    rw [← hanchors] at hdecode' ht
    rw [← hsmerged, ← htmerged]
    exact (h _).same hdecode hdecode' (hs.trans ht.symm) (hs'.trans (hmerged.trans ht'.symm))

/-! ### Scalars and lists -/

theorem steady_misfit (type : Bytes) (node : Node) : Steady (misfit type node) := by
  unfold misfit
  split
  · exact steady_note _
  · exact steady_note _
  · exact steady_note _
  · exact steady_pure _

/-- Notes that are added one after another are steady. -/
theorem steady_forM_note (items : List Mismatch) : Steady (items.forM note) := by
  induction items with
  | nil => exact steady_pure _
  | cons item items ih => exact (steady_note item).bind fun _ ↦ ih

theorem steady_keysDiffer (entries : List (Node × Node)) : Steady (keysDiffer entries) :=
  (steady_forM_note _).bind fun _ ↦ steady_pure _

theorem steady_misfitMapping (type : Bytes) (node : Node) (entries : List (Node × Node)) :
    Steady (misfitMapping type node entries) :=
  (steady_keysDiffer _).bind fun _ ↦ steady_ite (steady_misfit _ _) (steady_pure _)

/-- A scalar is decoded by its tag and its text alone. -/
theorem steady_scalar (type : String) (accept : OptionValue → Bytes → Option α) (node : Node) :
    Steady (scalar type accept node) := by
  refine Steady.visit (fun node ↦ ?_) node
  split
  · refine (steady_liftM _).bind fun r ↦ ?_
    split
    · exact steady_pure _
    · split
      · exact steady_pure _
      · exact (steady_misfit _ _).bind fun _ ↦ steady_pure _
  · exact (steady_misfitMapping _ _ _).bind fun _ ↦ steady_pure _
  · exact (steady_misfit _ _).bind fun _ ↦ steady_pure _

/-- A list of nodes is decoded steadily if each node is. -/
theorem steady_mapM {f : Node → Decode α} (hf : ∀ node, Steady (f node)) (nodes : List Node) :
    Steady (nodes.mapM f) := by
  induction nodes with
  | nil => exact steady_pure _
  | cons node nodes ih =>
    rw [List.mapM_cons]
    exact (hf node).bind fun _ ↦ ih.bind fun _ ↦ steady_pure _

/-- A list of texts is decoded steadily. -/
theorem steady_texts (node : Node) : Steady (texts node) := by
  refine Steady.visit (fun node ↦ ?_) node
  split
  · exact (steady_mapM (steady_scalar _ _) _).bind fun _ ↦ steady_pure _
  · refine (steady_liftM _).bind fun r ↦ ?_
    split
    · exact steady_pure _
    · exact (steady_misfit _ _).bind fun _ ↦ steady_pure _
  · exact (steady_misfitMapping _ _ _).bind fun _ ↦ steady_pure _
  · exact steady_pure _

/-! ### Mappings -/

/-- The parts of a target are steady. -/
structure Target.Steady (t : Target σ) : Prop where
  key (node : Node) : Decode.Steady (t.key node)
  put (key : OptionValue) (node : Node) (whole : σ) : Decode.Steady (t.put key node whole)

/-- Whether a key is free depends on the keys that are taken. -/
theorem steady_reserve (key : OptionValue) (taken : Option (List OptionValue)) :
    Steady (reserve key taken) := by
  cases taken with
  | none => exact steady_pure _
  | some taken => exact steady_ite (steady_throw _) (steady_pure _)

/-- An entry is put into the whole steadily if the parts of the target are steady. -/
theorem Target.Steady.putEntry {t : Target σ} (ht : t.Steady) (line : Nat) (key : OptionValue)
    (value : Node) (done : List OptionValue) (whole : σ) :
    Decode.Steady (putEntry t line key value done whole) := by
  refine steady_ite (steady_pure _) ?_
  split
  · exact (steady_note _).bind fun _ ↦ steady_pure _
  · exact (ht.put key value whole).bind fun _ ↦ steady_pure _

/-- An entry with a key is decoded steadily. -/
theorem Target.Steady.enterKey {t : Target σ} (ht : t.Steady) (line : Nat) (key : OptionValue)
    (value : Node) (progress : Progress σ) :
    Decode.Steady (enterKey t line key value progress) := by
  refine (steady_reserve key progress.1).bind fun free ↦ ?_
  split
  · exact steady_pure _
  · exact (ht.putEntry _ _ _ _ _).bind fun _ ↦ steady_pure _

/-- An entry is decoded steadily. -/
theorem Target.Steady.enter {t : Target σ} (ht : t.Steady) (entry : Node × Node)
    (progress : Progress σ) : Decode.Steady (enter t entry progress) := by
  refine steady_ite (steady_pure _) ((ht.key entry.1).bind fun key ↦ ?_)
  split
  · exact steady_pure _
  · exact ht.enterKey _ _ _ _

/-- Entries are decoded steadily, one after another. -/
theorem Target.Steady.entriesFrom {t : Target σ} (ht : t.Steady) (entries : List (Node × Node))
    (progress : Progress σ) : Decode.Steady (entriesFrom t entries progress) := by
  induction entries generalizing progress with
  | nil => exact steady_pure _
  | cons entry entries ih => exact (ht.enter entry progress).bind fun _ ↦ ih _

/-- Decoding a key is either part of a merge throughout or not at all. -/
theorem reserve_taken {key : OptionValue} {taken : Option (List OptionValue)}
    {free : Option (Option (List OptionValue))}
    (h : (reserve key taken).run s = .ok (free, s')) :
    s' = s ∧ ∀ taken', free = some taken' → taken'.isSome = taken.isSome := by
  rcases taken with _ | keys
  · cases h
    refine ⟨rfl, ?_⟩
    rintro _ ⟨⟩
    rfl
  · unfold reserve at h
    dsimp only at h
    split at h
    · cases h
    · split at h
      · cases h
        exact ⟨rfl, nofun⟩
      · cases h
        refine ⟨rfl, ?_⟩
        rintro _ ⟨⟩
        rfl

/-- An entry adds to the list of keys that are taken if there is one, and makes none. -/
theorem enter_taken {t : Target σ} {entry : Node × Node} {progress progress' : Progress σ}
    (h : (enter t entry progress).run s = .ok (progress', s')) :
    progress'.1.isSome = progress.1.isSome := by
  rw [enter] at h
  by_cases hmerge : entry.1.isMerge = true
  · rw [if_pos hmerge] at h
    cases h
    rfl
  · rw [if_neg hmerge] at h
    obtain ⟨key, s₁, -, h⟩ := run_bind_ok.1 h
    rcases key with _ | key
    · cases h
      rfl
    · obtain ⟨taken, done, whole⟩ := progress
      obtain ⟨free, s₂, hreserve, h⟩ := run_bind_ok.1 h
      obtain ⟨-, hfree⟩ := reserve_taken hreserve
      rcases free with _ | taken'
      · cases h
        rfl
      · obtain ⟨_, _, -, h⟩ := run_bind_ok.1 h
        cases h
        exact hfree taken' rfl

/-- Entries add to the list of keys that are taken if there is one, and make none. -/
theorem entriesFrom_taken {t : Target σ} {entries : List (Node × Node)}
    {progress progress' : Progress σ}
    (h : (entriesFrom t entries progress).run s = .ok (progress', s')) :
    progress'.1.isSome = progress.1.isSome := by
  induction entries generalizing progress s with
  | nil =>
    cases h
    rfl
  | cons entry entries ih =>
    obtain ⟨progress₁, s₁, henter, h⟩ := run_bind_ok.1 h
    exact (ih h).trans (enter_taken henter)

/-- The entries of a mapping itself are decoded while nothing counts as taken for what stands in
them. -/
theorem run_ownEntries {t : Target σ} {entries : List (Node × Node)} {whole whole' : σ}
    (h : (ownEntries t entries whole).run s = .ok (whole', s')) :
    ∃ taken done s₁, (entriesFrom t entries (s.merged, [], whole)).run { s with merged := none }
        = .ok ((taken, done, whole'), s₁) ∧ s' = { s₁ with merged := taken } := by
  obtain ⟨_, _, hget, h⟩ := run_bind_ok.1 h
  cases hget
  obtain ⟨_, _, hmodify, h⟩ := run_bind_ok.1 h
  cases hmodify
  obtain ⟨⟨taken, done, _⟩, s₁, hentries, h⟩ := run_bind_ok.1 h
  obtain ⟨_, _, hmodify, h⟩ := run_bind_ok.1 h
  cases hmodify
  cases h
  exact ⟨taken, done, s₁, hentries, rfl⟩

/-- A mapping is either part of a merge throughout or not at all. -/
theorem ownEntries_taken {t : Target σ} {entries : List (Node × Node)} {whole whole' : σ}
    (h : (ownEntries t entries whole).run s = .ok (whole', s')) :
    s'.merged.isSome = s.merged.isSome := by
  obtain ⟨taken, done, s₁, hentries, rfl⟩ := run_ownEntries h
  exact entriesFrom_taken hentries

/-- The entries of a mapping are decoded steadily, though nothing counts as taken inside them. -/
theorem Target.Steady.ownEntries {t : Target σ} (ht : t.Steady) (entries : List (Node × Node))
    (whole : σ) : Decode.Steady (ownEntries t entries whole) where
  anchors h := by
    obtain ⟨taken, done, s₁, hentries, rfl⟩ := run_ownEntries h
    have hanchors := (ht.entriesFrom _ _).anchors hentries
    exact hanchors
  mismatches h := by
    obtain ⟨taken, done, s₁, hentries, rfl⟩ := run_ownEntries h
    have hmismatches := (ht.entriesFrom _ _).mismatches hentries
    exact hmismatches
  merged h hs := by
    have hsome := ownEntries_taken h
    rw [hs, Option.isSome_none, Option.isSome_eq_false_iff, Option.isNone_iff_eq_none] at hsome
    exact hsome
  same {s s' t' _ a b} h h' hanchors hmerged := by
    obtain ⟨taken, done, s₁, hentries, rfl⟩ := run_ownEntries h
    obtain ⟨taken', done', t₁, hentries', rfl⟩ := run_ownEntries h'
    rw [← hmerged] at hentries'
    obtain ⟨heq, -⟩ := (ht.entriesFrom _ _).same hentries hentries' hanchors rfl
    cases heq
    exact ⟨rfl, rfl⟩

/-- The keys that are taken by a mapping depend on its keys alone. -/
theorem steady_takenKeys {anyKey : Node → Decode (Option OptionValue)}
    (hany : ∀ node, Steady (anyKey node)) (entries : List (Node × Node))
    (taken : List OptionValue) : Steady (takenKeys anyKey entries taken) := by
  induction entries generalizing taken with
  | nil => exact steady_pure _
  | cons entry entries ih =>
    refine (hany entry.1).bind fun v ↦ ?_
    split
    · exact ih _
    · exact steady_ite (steady_throw _) (ih _)

/-- Mappings are merged steadily if each is decoded so. -/
theorem steady_mergeAll {decode : Node → σ → Decode σ}
    (hdecode : ∀ node whole, Steady (decode node whole)) (nodes : List Node) (whole : σ) :
    Steady (mergeAll decode nodes whole) := by
  induction nodes generalizing whole with
  | nil => exact steady_pure _
  | cons node nodes ih =>
    exact steady_ite_anchors (isMergeSource · node) ((hdecode node whole).bind fun _ ↦ ih _)
      (steady_throw _)

/-- The outermost mapping that merges others takes its own keys first. -/
theorem run_merge_of_none {anyKey : Node → Decode (Option OptionValue)}
    {decode : Node → σ → Decode σ} {entries : List (Node × Node)} {source : Node} {whole whole' : σ}
    (hs : s.merged = none)
    (h : (merge anyKey decode entries source whole).run s = .ok (whole', s')) :
    ∃ taken s₁ s₂, (takenKeys anyKey entries []).run s = .ok (taken, s₁) ∧
      (mergeAll decode (mergeNodes source) whole).run { s₁ with merged := some taken }
        = .ok (whole', s₂) ∧ s' = { s₂ with merged := none } := by
  obtain ⟨_, _, hget, h⟩ := run_bind_ok.1 h
  cases hget
  rw [hs] at h
  obtain ⟨taken, s₁, htaken, h⟩ := run_bind_ok.1 h
  obtain ⟨_, _, hmodify, h⟩ := run_bind_ok.1 h
  cases hmodify
  obtain ⟨_, s₂, hall, h⟩ := run_bind_ok.1 h
  obtain ⟨_, _, hmodify, h⟩ := run_bind_ok.1 h
  cases hmodify
  cases h
  exact ⟨taken, s₁, s₂, htaken, hall, rfl⟩

/-- A mapping that is being merged merges others under the keys that are taken already. -/
theorem run_merge_of_some {anyKey : Node → Decode (Option OptionValue)}
    {decode : Node → σ → Decode σ} {entries : List (Node × Node)} {source : Node} {whole whole' : σ}
    {taken : List OptionValue} (hs : s.merged = some taken)
    (h : (merge anyKey decode entries source whole).run s = .ok (whole', s')) :
    (mergeAll decode (mergeNodes source) whole).run s = .ok (whole', s') := by
  obtain ⟨_, _, hget, h⟩ := run_bind_ok.1 h
  cases hget
  rw [hs] at h
  exact h

/-- Mappings are merged steadily, be it by the outermost one or by one that is merged itself. -/
theorem steady_merge {anyKey : Node → Decode (Option OptionValue)} {decode : Node → σ → Decode σ}
    (hany : ∀ node, Steady (anyKey node)) (hdecode : ∀ node whole, Steady (decode node whole))
    (entries : List (Node × Node)) (source : Node) (whole : σ) :
    Steady (merge anyKey decode entries source whole) := by
  have hall := steady_mergeAll hdecode (mergeNodes source) whole
  have htaken := steady_takenKeys hany entries []
  constructor
  case anchors =>
    intro s s' a h
    rcases hs : s.merged with _ | taken
    · obtain ⟨taken, s₁, s₂, h₁, h₂, rfl⟩ := run_merge_of_none hs h
      have hanchors := hall.anchors h₂
      have hanchors₁ := htaken.anchors h₁
      exact hanchors.trans hanchors₁
    · exact hall.anchors (run_merge_of_some hs h)
  case mismatches =>
    intro s s' a h
    rcases hs : s.merged with _ | taken
    · obtain ⟨taken, s₁, s₂, h₁, h₂, rfl⟩ := run_merge_of_none hs h
      have hmismatches := hall.mismatches h₂
      have hmismatches₁ := htaken.mismatches h₁
      exact hmismatches₁.trans hmismatches
    · exact hall.mismatches (run_merge_of_some hs h)
  case merged =>
    intro s s' a h hs
    obtain ⟨taken, s₁, s₂, h₁, h₂, rfl⟩ := run_merge_of_none hs h
    rfl
  case same =>
    intro s s' t t' a b h h' hanchors hmerged
    rcases hs : s.merged with _ | taken
    · obtain ⟨taken, s₁, s₂, h₁, h₂, rfl⟩ := run_merge_of_none hs h
      obtain ⟨taken', t₁, t₂, h₁', h₂', rfl⟩ := run_merge_of_none (hmerged ▸ hs) h'
      obtain ⟨rfl, -⟩ := htaken.same h₁ h₁' hanchors hmerged
      have hanchors₁ : s₁.anchors = t₁.anchors := by
        rw [htaken.anchors h₁, htaken.anchors h₁', hanchors]
      exact ⟨(hall.same h₂ h₂' hanchors₁ rfl).1, rfl⟩
    · exact hall.same (run_merge_of_some hs h) (run_merge_of_some (hmerged ▸ hs) h') hanchors
        hmerged

/-- A mapping merges others steadily, or merges none. -/
theorem steady_mergeOthers {anyKey : Node → Decode (Option OptionValue)}
    {decode : Node → σ → Decode σ} (hany : ∀ node, Steady (anyKey node))
    (hdecode : ∀ node whole, Steady (decode node whole)) (entries : List (Node × Node))
    (whole : σ) : Steady (mergeOthers anyKey decode entries whole) := by
  unfold mergeOthers
  split
  · exact steady_pure _
  · exact steady_merge hany hdecode _ _ _

/-- A merged mapping is decoded steadily if its entries are. -/
theorem steady_mergedMapping {decode : List (Node × Node) → σ → Decode σ}
    (hdecode : ∀ entries whole, Steady (decode entries whole)) (node : Node) (whole : σ) :
    Steady (mergedMapping decode node whole) := by
  refine Steady.visit (fun node ↦ ?_) node
  split
  · exact (steady_keysDiffer _).bind fun _ ↦ steady_ite (hdecode _ _) (steady_pure _)
  · exact steady_pure _

/-- All entries of a mapping are decoded steadily, however deep merged mappings are nested. -/
theorem Target.Steady.mappingEntries {anyKey : Node → Decode (Option OptionValue)}
    {merged : Target σ} (hany : ∀ node, Decode.Steady (anyKey node)) (hmerged : merged.Steady)
    (fuel : Nat) {t : Target σ} (ht : t.Steady) (entries : List (Node × Node)) (whole : σ) :
    Decode.Steady (mappingEntries anyKey merged fuel t entries whole) := by
  induction fuel generalizing t entries whole with
  | zero => exact steady_throw _
  | succ fuel ih =>
    exact (ht.ownEntries entries whole).bind fun whole ↦
      steady_mergeOthers hany (steady_mergedMapping fun _ _ ↦ ih hmerged _ _) entries whole

theorem steady_textKey (node : Node) : Steady (textKey node) :=
  (steady_scalar _ _ node).bind fun _ ↦ steady_pure _

/-- The fields of a record are decoded steadily if their values are. -/
theorem steady_recordTarget {any : Node → Decode (Option OptionValue)}
    (hany : ∀ node, Steady (any node)) : (recordTarget any).Steady where
  key := steady_textKey
  put key node fields := by
    refine (hany node).bind fun v ↦ ?_
    split
    · exact steady_pure _
    · exact steady_pure _

/-- The entries of a mapping with any keys are decoded steadily if keys and values are. -/
theorem steady_entryTarget {any : Node → Decode (Option OptionValue)}
    (hany : ∀ node, Steady (any node)) : (entryTarget any).Steady where
  key := hany
  put key node entries := by
    refine steady_ite (steady_throw _) ((hany node).bind fun v ↦ ?_)
    split
    · exact steady_pure _
    · exact steady_pure _

/-- Any value is decoded steadily, by induction on how deep collections may be nested. -/
theorem steady_any (fuel : Nat) (node : Node) : Steady (any fuel node) := by
  induction fuel generalizing node with
  | zero => exact steady_throw _
  | succ fuel ih =>
    refine Steady.visit (fun node ↦ ?_) node
    split
    · exact (steady_liftM _).bind fun _ ↦ steady_pure _
    · exact (steady_mapM ih _).bind fun _ ↦ steady_pure _
    · refine (steady_keysDiffer _).bind fun _ ↦ steady_ite ?_ (steady_pure _)
      refine steady_ite_anchors (hasTextKeys · _) ?_ ?_
      · have ht := steady_recordTarget ih
        exact (ht.mappingEntries ih fuel ht _ _).bind fun _ ↦ steady_pure _
      · have ht := steady_entryTarget ih
        exact (ht.mappingEntries ih fuel ht _ _).bind fun _ ↦ steady_pure _
    · exact steady_pure _

/-- The fields of a structure are decoded steadily if the parts of its target are steady. -/
theorem Target.Steady.fields {t : Target σ} (ht : t.Steady) (fuel : Nat) (type : Bytes)
    (node : Node) (whole : σ) : Decode.Steady (Decode.fields fuel t type node whole) := by
  refine Steady.visit (fun node ↦ ?_) node
  split
  · refine (steady_keysDiffer _).bind fun _ ↦ steady_ite ?_ (steady_pure _)
    exact (ht.mappingEntries (steady_any fuel) fuel ht _ _).bind fun _ ↦ steady_pure _
  · refine (steady_liftM _).bind fun r ↦ ?_
    split
    · exact steady_pure _
    · exact (steady_misfit _ _).bind fun _ ↦ steady_pure _
  · exact (steady_misfit _ _).bind fun _ ↦ steady_pure _

end ColonGap.Yaml.Decode
