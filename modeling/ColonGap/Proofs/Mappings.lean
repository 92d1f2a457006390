import ColonGap.Proofs.Readings

/-!
# What the entries of a mapping do

An entry of a mapping does one of four things (`Enters`): it passes, is hidden by a key that is
taken, is not known, or is put into the whole. So of the entries with the name of a field the first
one that is not hidden sets the field, and no other does; that a mapping sets a field twice itself
does not fit.
-/

namespace ColonGap.Yaml

variable {anchors : List (Nat × Node)}

/-- Whether an entry has a name. -/
def isNamed (anchors : List (Nat × Node)) (name : Bytes) (entry : Node × Node) : Bool :=
  !entry.1.isMerge && entry.1.text? anchors == some name

/-- The value of the first entry with a name. -/
def field? (anchors : List (Nat × Node)) (name : Bytes) (entries : List (Node × Node)) :
    Option Node :=
  (entries.find? (isNamed anchors name)).map (·.2)

variable {name : Bytes} {entry : Node × Node} {entries : List (Node × Node)}

theorem field?_cons_of_isNamed (h : isNamed anchors name entry = true) :
    field? anchors name (entry :: entries) = some entry.2 := by
  rw [field?, List.find?_cons_of_pos h]
  rfl

theorem field?_cons_of_not_isNamed (h : isNamed anchors name entry = false) :
    field? anchors name (entry :: entries) = field? anchors name entries := by
  rw [field?, List.find?_cons_of_neg (ne_true_of_eq_false h)]
  rfl

/-- The field is set by the first entries, or else by those behind them. -/
theorem field?_append (entries entries' : List (Node × Node)) :
    field? anchors name (entries ++ entries')
      = (field? anchors name entries).or (field? anchors name entries') := by
  rw [field?, List.find?_append]
  rcases h : entries.find? (isNamed anchors name) with _ | found
  · rw [field?, field?, h]
    rfl
  · rw [field?, h]
    rfl

theorem field?_isSome_iff :
    (field? anchors name entries).isSome = true ↔
      ∃ entry ∈ entries, isNamed anchors name entry = true := by
  rw [field?, Option.isSome_map, List.find?_isSome]

namespace Decode

variable {σ β : Type} {s s' : Decoding} {t : Target σ} {names : List Bytes}

/-! ### One entry -/

theorem same_text_iff {key : OptionValue} : Key.same key (.text name) = true ↔ key = .text name := by
  unfold Key.same
  split <;> simp_all

theorem any_same_text_iff {keys : List OptionValue} :
    (keys.any (Key.same · (.text name))) = true ↔ .text name ∈ keys := by
  simp [List.any_eq_true, same_text_iff]

/-- A target whose keys are texts. -/
structure Target.TextKeyed (t : Target σ) : Prop where
  key : t.key = textKey
  put (key : OptionValue) (node : Node) (whole : σ) : Decode.Steady (t.put key node whole)

/-- A target that is a structure with fields. -/
structure Target.HasFields (t : Target σ) (names : List Bytes) : Prop extends t.TextKeyed where
  fields : ∃ type, t.fields = some (type, names)

theorem Target.TextKeyed.steady (ht : t.TextKeyed) : t.Steady where
  key node := by
    rw [ht.key]
    exact steady_textKey node
  put := ht.put

/-- What decoding gives at nodes where everything fits and no mappings are being merged. -/
def Decoded {α : Type} (anchors : List (Nat × Node)) (m : Decode α) (a : α) : Prop :=
  ∃ s s', s.anchors = anchors ∧ s.merged = none ∧ Runs m s a s'

/-- What decoding gives at given anchors is determined. -/
theorem Decoded.unique {α : Type} {m : Decode α} {a b : α} (hm : Steady m)
    (h : Decoded anchors m a) (h' : Decoded anchors m b) : a = b := by
  obtain ⟨s, s', hs, hmerged, hrun⟩ := h
  obtain ⟨t, t', ht, hmerged', hrun'⟩ := h'
  exact (hm.same hrun.run hrun'.run (hs.trans ht.symm) (hmerged.trans hmerged'.symm)).1

/-- Decoding, followed by a function, gives what the function makes of what decoding gives. -/
theorem Decoded.map {α γ : Type} {m : Decode α} {f : α → γ} {b : γ}
    (h : Decoded anchors (do return f (← m)) b) (hm : Steady m) :
    ∃ a, Decoded anchors m a ∧ b = f a := by
  obtain ⟨s, s', hs, hmerged, hrun⟩ := h
  obtain ⟨a, ha, rfl⟩ := hrun.map hm
  exact ⟨a, ⟨s, s', hs, hmerged, ha⟩, rfl⟩

/-- A name is not among the keys that are taken. -/
def IsFree (name : Bytes) (taken : Option (List OptionValue)) : Prop :=
  ∀ keys, taken = some keys → .text name ∉ keys

/-- What one entry does. -/
inductive Enters (t : Target σ) (anchors : List (Nat × Node)) (entry : Node × Node) :
    Progress σ → Progress σ → Prop
  /-- It merges other mappings or its key is null. -/
  | passed {progress} (unnamed : ∀ name, isNamed anchors name entry = false) :
      Enters t anchors entry progress progress
  /-- Its name is taken. -/
  | hidden {name keys done whole} (named : isNamed anchors name entry = true)
      (mem : .text name ∈ keys) :
      Enters t anchors entry (some keys, done, whole) (some keys, done, whole)
  /-- Its name is not that of a field. -/
  | foreign {name taken done whole} (named : isNamed anchors name entry = true)
      (free : IsFree name taken) (unknown : t.knows (.text name) = false) :
      Enters t anchors entry (taken, done, whole) (taken.map (.text name :: ·), done, whole)
  /-- It is put into the whole, and is no field that is set already. -/
  | put {name taken done whole whole'} (named : isNamed anchors name entry = true)
      (free : IsFree name taken) (known : t.knows (.text name) = true)
      (new : ∃ line, t.repeated? line (.text name) done = none)
      (decoded : Decoded anchors (t.put (.text name) entry.2 whole) whole') :
      Enters t anchors entry (taken, done, whole)
        (taken.map (.text name :: ·), .text name :: done, whole')

/-- A name that is taken hides its entry, and one that is free is taken then. -/
theorem Runs.reserve {taken : Option (List OptionValue)} {r : Option (Option (List OptionValue))}
    (h : Runs (reserve (.text name) taken) s r s') :
    s' = s ∧ ((∃ keys, taken = some keys ∧ .text name ∈ keys ∧ r = none) ∨
      (IsFree name taken ∧ r = some (taken.map (.text name :: ·)))) := by
  rcases taken with _ | keys
  · obtain ⟨rfl, rfl⟩ := Runs.pure_iff.1 h
    exact ⟨rfl, .inr ⟨nofun, rfl⟩⟩
  · obtain ⟨rfl, rfl⟩ := Runs.pure_iff.1 h
    refine ⟨rfl, ?_⟩
    by_cases hmem : .text name ∈ keys
    · rw [if_pos (any_same_text_iff.2 hmem)]
      exact .inl ⟨keys, rfl, hmem, rfl⟩
    · rw [if_neg (mt any_same_text_iff.1 hmem)]
      refine .inr ⟨?_, rfl⟩
      rintro _ ⟨⟩
      exact hmem

/-- The value of a key that is known and not set yet is put into the whole. -/
theorem Runs.putEntry (ht : t.Steady) {key : OptionValue} {line : Nat} {value : Node}
    {done : List OptionValue} {whole : σ} {r : List OptionValue × σ}
    (h : Runs (putEntry t line key value done whole) s r s') :
    (t.knows key = false ∧ r = (done, whole)) ∨
      (t.knows key = true ∧ t.repeated? line key done = none ∧
        ∃ whole', r = (key :: done, whole') ∧ Runs (t.put key value whole) s whole' s') := by
  unfold Decode.putEntry at h
  rcases hknown : t.knows key with _ | _
  · rw [hknown] at h
    obtain ⟨rfl, rfl⟩ := Runs.pure_iff.1 h
    exact .inl ⟨rfl, rfl⟩
  · rw [hknown] at h
    rcases hrepeated : t.repeated? line key done with _ | mismatch
    · rw [hrepeated] at h
      obtain ⟨whole', hput, rfl⟩ := Runs.map (f := fun whole ↦ (key :: done, whole)) h
        (ht.put _ _ _)
      exact .inr ⟨rfl, rfl, whole', rfl, hput⟩
    · rw [hrepeated] at h
      obtain ⟨_, _, hnote, -⟩ := h.bind (steady_note _) fun _ ↦ steady_pure _
      exact absurd hnote (not_runs_note _)

/-- A key that is a text is the text of its node. -/
theorem Runs.textKey {node : Node} {r : Option OptionValue} (h : Runs (textKey node) s r s') :
    r = (node.text? s.anchors).map .text := by
  obtain ⟨a, ha, rfl⟩ := h.map (steady_scalar _ _ _)
  rw [ha.scalar.1]
  rfl

/-- An entry that merges nothing has the text of its key for a name. -/
theorem isNamed_of_text? {key value : Node} (hmerge : ¬ key.isMerge = true)
    (h : key.text? anchors = some name) : isNamed anchors name (key, value) = true := by
  unfold isNamed
  rw [Bool.eq_false_iff.2 hmerge, h]
  exact beq_self_eq_true _

/-- An entry with a name is hidden, foreign or put into the whole. -/
theorem Runs.enterKey (ht : t.TextKeyed) {line : Nat} {progress progress' : Progress σ}
    (hs : s.merged = none) (hnamed : isNamed s.anchors name entry = true)
    (h : Runs (enterKey t line (.text name) entry.2 progress) s progress' s') :
    Enters t s.anchors entry progress progress' := by
  obtain ⟨taken, done, whole⟩ := progress
  obtain ⟨free, s₁, hreserve, h⟩ := h.bind (steady_reserve _ _) fun free ↦ by
    rcases free with _ | taken
    · exact steady_pure _
    · exact (ht.steady.putEntry _ _ _ _ _).bind fun _ ↦ steady_pure _
  obtain ⟨rfl, ⟨keys, rfl, hmem, rfl⟩ | ⟨hfree, rfl⟩⟩ := hreserve.reserve
  · obtain ⟨rfl, rfl⟩ := Runs.pure_iff.1 h
    exact .hidden hnamed hmem
  · obtain ⟨r, hput, rfl⟩ := Runs.map (f := fun r ↦ (taken.map (.text name :: ·), r.1, r.2)) h
      (ht.steady.putEntry _ _ _ _ _)
    obtain ⟨hunknown, rfl⟩ | ⟨hknown, hnew, whole', rfl, hrun⟩ := hput.putEntry ht.steady
    · exact .foreign hnamed hfree hunknown
    · exact .put hnamed hfree hknown ⟨line, hnew⟩ ⟨s₁, s', rfl, hs, hrun⟩

/-- An entry does one of four things. -/
theorem Runs.enter (ht : t.TextKeyed) {progress progress' : Progress σ}
    (hs : s.merged = none) (h : Runs (enter t entry progress) s progress' s') :
    Enters t s.anchors entry progress progress' := by
  rw [Decode.enter] at h
  by_cases hmerge : entry.1.isMerge = true
  · rw [if_pos hmerge] at h
    obtain ⟨rfl, rfl⟩ := Runs.pure_iff.1 h
    refine .passed fun name ↦ ?_
    unfold isNamed
    rw [hmerge]
    rfl
  · rw [if_neg hmerge] at h
    obtain ⟨key, s₁, hkey, h⟩ := h.bind (ht.steady.key _) fun key ↦ by
      rcases key with _ | key
      · exact steady_pure _
      · exact ht.steady.enterKey _ _ _ _
    have hanchors := (ht.steady.key _).anchors hkey.run
    have hs₁ := (ht.steady.key _).merged hkey.run hs
    rw [ht.key] at hkey
    rcases htext : entry.1.text? s.anchors with _ | name
    · obtain rfl : key = none := by rw [hkey.textKey, htext]; rfl
      obtain ⟨rfl, rfl⟩ := Runs.pure_iff.1 h
      refine .passed fun name ↦ ?_
      unfold isNamed
      rw [htext]
      exact Bool.and_false _
    · obtain rfl : key = some (.text name) := by rw [hkey.textKey, htext]; rfl
      rw [← hanchors] at htext ⊢
      exact h.enterKey ht hs₁ (isNamed_of_text? hmerge htext)

/-- What entries do one after another. -/
inductive EntersAll (t : Target σ) (anchors : List (Nat × Node)) :
    List (Node × Node) → Progress σ → Progress σ → Prop
  | nil {progress} : EntersAll t anchors [] progress progress
  | cons {entry entries progress progress₁ progress'}
      (first : Enters t anchors entry progress progress₁)
      (rest : EntersAll t anchors entries progress₁ progress') :
      EntersAll t anchors (entry :: entries) progress progress'

/-- Entries of a run enter one after another. -/
theorem Runs.entriesFrom (ht : t.TextKeyed) {progress progress' : Progress σ}
    (hs : s.merged = none) (h : Runs (entriesFrom t entries progress) s progress' s') :
    EntersAll t s.anchors entries progress progress' := by
  induction entries generalizing s progress with
  | nil =>
    obtain ⟨rfl, -⟩ := Runs.pure_iff.1 h
    exact .nil
  | cons entry entries ih =>
    obtain ⟨progress₁, s₁, henter, h⟩ := h.bind (ht.steady.enter _ _) fun _ ↦
      ht.steady.entriesFrom _ _
    have hanchors := (ht.steady.enter _ _).anchors henter.run
    have hs₁ := (ht.steady.enter _ _).merged henter.run hs
    refine .cons (henter.enter ht hs) ?_
    rw [← hanchors]
    exact ih hs₁ h

/-! ### One field -/

/-- A structure knows the names of its fields. -/
theorem Target.HasFields.knows_iff (ht : t.HasFields names) :
    t.knows (.text name) = true ↔ name ∈ names := by
  obtain ⟨type, hfields⟩ := ht.fields
  unfold Target.knows
  rw [hfields]
  exact List.contains_iff_mem

/-- A field is no repeated one exactly if it is not set yet. -/
theorem Target.HasFields.repeated?_eq_none_iff (ht : t.HasFields names) {line : Nat}
    {done : List OptionValue} :
    t.repeated? line (.text name) done = none ↔ .text name ∉ done := by
  obtain ⟨type, hfields⟩ := ht.fields
  unfold Target.repeated?
  rw [hfields]
  dsimp only
  rw [ite_eq_right_iff, ← any_same_text_iff]
  exact imp_congr_right fun _ ↦ iff_of_false nofun nofun

/-- A part of the whole that only the field with this name changes. -/
structure Target.Field (t : Target σ) (names : List Bytes) (name : Bytes) (get : σ → β) : Prop where
  mem : name ∈ names
  plain : IsPlainText name
  unmerged : name ≠ utf8 "<<"
  others {anchors : List (Nat × Node)} {key : Bytes} {value : Node} {whole whole' : σ} :
    key ∈ names → key ≠ name → Decoded anchors (t.put (.text key) value whole) whole' →
      get whole' = get whole

/-- What becomes of a part of the whole where its field is set to a node, or not set. -/
inductive Target.Sets (t : Target σ) (anchors : List (Nat × Node)) (name : Bytes) (get : σ → β) :
    Option Node → σ → σ → Prop
  | unset {whole whole'} (same : get whole' = get whole) : t.Sets anchors name get none whole whole'
  | set {value whole whole₁ whole₂ whole'} (before : get whole₁ = get whole)
      (decoded : Decoded anchors (t.put (.text name) value whole₁) whole₂)
      (behind : get whole' = get whole₂) : t.Sets anchors name get (some value) whole whole'

/-- What a field was before it was set may be read off anything with the same field. -/
theorem Target.Sets.of_before {get : σ → β} {value : Option Node} {whole whole₁ whole' : σ}
    (hbefore : get whole₁ = get whole) (h : t.Sets anchors name get value whole₁ whole') :
    t.Sets anchors name get value whole whole' := by
  obtain hsame | ⟨hbefore', hdecoded, hbehind⟩ := h
  · exact .unset (hsame.trans hbefore)
  · exact .set (hbefore'.trans hbefore) hdecoded hbehind

/-- What a field is behind it may be read off anything with the same field. -/
theorem Target.Sets.of_behind {get : σ → β} {value : Option Node} {whole whole₁ whole' : σ}
    (h : t.Sets anchors name get value whole whole₁) (hbehind : get whole' = get whole₁) :
    t.Sets anchors name get value whole whole' := by
  obtain hsame | ⟨hbefore, hdecoded, hbehind'⟩ := h
  · exact .unset (hbehind.trans hsame)
  · exact .set hbefore hdecoded (hbehind.trans hbehind')

/-- Whether an entry with a name may still set its field. -/
def IsOpen (name : Bytes) (progress : Progress σ) : Prop :=
  IsFree name progress.1 ∧ .text name ∉ progress.2.1

/-- An entry has one name at most. -/
theorem isNamed_unique {name' : Bytes} (h : isNamed anchors name entry = true)
    (h' : isNamed anchors name' entry = true) : name = name' := by
  unfold isNamed at h h'
  obtain ⟨-, h⟩ := Bool.and_eq_true_iff.1 h
  obtain ⟨-, h'⟩ := Bool.and_eq_true_iff.1 h'
  exact Option.some_inj.1 ((eq_of_beq h).symm.trans (eq_of_beq h'))

/-- A name is free of keys exactly if it is none of them. -/
theorem isFree_some_iff {keys : List OptionValue} : IsFree name (some keys) ↔ .text name ∉ keys := by
  constructor
  · exact fun h ↦ h keys rfl
  · rintro h _ ⟨⟩
    exact h

/-- Taking another name leaves a name as free as it was. -/
theorem isFree_map_iff {name' : Bytes} (hne : name' ≠ name) {taken : Option (List OptionValue)} :
    IsFree name (taken.map (.text name' :: ·)) ↔ IsFree name taken := by
  rcases taken with _ | keys
  · exact Iff.rfl
  · rw [Option.map_some, isFree_some_iff, isFree_some_iff, List.mem_cons, OptionValue.text.injEq]
    simp only [hne.symm, false_or]

theorem ne_of_isNamed {name' : Bytes} (h : isNamed anchors name entry = false)
    (h' : isNamed anchors name' entry = true) : name' ≠ name := by
  rintro rfl
  exact Bool.false_ne_true (h.symm.trans h')

/-- An entry of another name leaves a name as free as it was. -/
theorem Enters.isFree_iff {progress progress' : Progress σ}
    (h : Enters t anchors entry progress progress') (hnamed : isNamed anchors name entry = false) :
    IsFree name progress'.1 ↔ IsFree name progress.1 := by
  rcases h with _ | _ | ⟨hnamed', -, -⟩ | ⟨hnamed', -, -, -, -⟩
  · rfl
  · rfl
  · exact isFree_map_iff (ne_of_isNamed hnamed hnamed')
  · exact isFree_map_iff (ne_of_isNamed hnamed hnamed')

/-- An entry of another name changes neither the field nor whether it may still be set. -/
theorem Enters.other (ht : t.HasFields names) {get : σ → β} (hget : t.Field names name get)
    {progress progress' : Progress σ} (h : Enters t anchors entry progress progress')
    (hnamed : isNamed anchors name entry = false) :
    (IsOpen name progress' ↔ IsOpen name progress) ∧ get progress'.2.2 = get progress.2.2 := by
  have hfree := h.isFree_iff hnamed
  rcases h with _ | _ | _ | ⟨hnamed', -, hknown, -, hdecoded⟩
  · exact ⟨Iff.rfl, rfl⟩
  · exact ⟨Iff.rfl, rfl⟩
  · exact ⟨and_congr_left fun _ ↦ hfree, rfl⟩
  · have hne := ne_of_isNamed hnamed hnamed'
    refine ⟨and_congr hfree (not_congr ?_), hget.others (ht.knows_iff.1 hknown) hne hdecoded⟩
    rw [List.mem_cons, OptionValue.text.injEq]
    simp only [hne.symm, false_or]

/-- An entry of the name of a field sets it if it is not set, and else does nothing. -/
theorem Enters.named (ht : t.HasFields names) (hname : name ∈ names) {progress progress' : Progress σ}
    (h : Enters t anchors entry progress progress')
    (hnamed : isNamed anchors name entry = true) :
    (¬ IsOpen name progress ∧ progress' = progress) ∨
      (IsOpen name progress ∧ ¬ IsOpen name progress' ∧
        Decoded anchors (t.put (.text name) entry.2 progress.2.2) progress'.2.2) := by
  rcases h with hunnamed | ⟨hnamed', hmem⟩ | ⟨hnamed', -, hunknown⟩ |
    ⟨hnamed', hfree, -, hnew, hdecoded⟩
  · exact absurd hnamed (ne_true_of_eq_false (hunnamed name))
  · obtain rfl := isNamed_unique hnamed hnamed'
    exact .inl ⟨fun hopen ↦ isFree_some_iff.1 hopen.1 hmem, rfl⟩
  · obtain rfl := isNamed_unique hnamed hnamed'
    exact absurd (ht.knows_iff.2 hname) (ne_true_of_eq_false hunknown)
  · obtain rfl := isNamed_unique hnamed hnamed'
    obtain ⟨line, hnew⟩ := hnew
    exact .inr ⟨⟨hfree, ht.repeated?_eq_none_iff.1 hnew⟩, fun hopen ↦ hopen.2 List.mem_cons_self, hdecoded⟩

/-- A field that is set stays as it is. -/
theorem EntersAll.closed (ht : t.HasFields names) {get : σ → β} (hget : t.Field names name get)
    {progress progress' : Progress σ} (h : EntersAll t anchors entries progress progress')
    (hopen : ¬ IsOpen name progress) : get progress'.2.2 = get progress.2.2 := by
  induction h with
  | nil => rfl
  | @cons entry entries progress progress₁ progress' first rest ih =>
    rcases hnamed : isNamed anchors name entry with _ | _
    · obtain ⟨hiff, hsame⟩ := first.other ht hget hnamed
      exact (ih (mt hiff.1 hopen)).trans hsame
    · obtain ⟨-, rfl⟩ | ⟨hopen', -⟩ := first.named ht hget.mem hnamed
      · exact ih hopen
      · exact absurd hopen' hopen

/-- A field that is not set is set by the first entry of its name. -/
theorem EntersAll.sets (ht : t.HasFields names) {get : σ → β} (hget : t.Field names name get)
    {progress progress' : Progress σ} (h : EntersAll t anchors entries progress progress')
    (hopen : IsOpen name progress) :
    t.Sets anchors name get (field? anchors name entries) progress.2.2 progress'.2.2 := by
  induction h with
  | nil => exact .unset rfl
  | @cons entry entries progress progress₁ progress' first rest ih =>
    rcases hnamed : isNamed anchors name entry with _ | _
    · obtain ⟨hiff, hsame⟩ := first.other ht hget hnamed
      rw [field?_cons_of_not_isNamed hnamed]
      exact (ih (hiff.2 hopen)).of_before hsame
    · obtain ⟨hclosed, -⟩ | ⟨-, hclosed, hdecoded⟩ := first.named ht hget.mem hnamed
      · exact absurd hopen hclosed
      · rw [field?_cons_of_isNamed hnamed]
        exact .set rfl hdecoded (rest.closed ht hget hclosed)

/-- The keys that are taken after an entry are those before and its name. -/
theorem Enters.taken {progress progress' : Progress σ}
    (h : Enters t anchors entry progress progress') (name : Bytes) {keys : List OptionValue}
    (hkeys : progress.1 = some keys) :
    ∃ keys', progress'.1 = some keys' ∧
      (.text name ∈ keys' ↔ .text name ∈ keys ∨ isNamed anchors name entry = true) := by
  have hiff {name' : Bytes} (hnamed : isNamed anchors name' entry = true) :
      isNamed anchors name entry = true ↔ name = name' :=
    ⟨fun h ↦ isNamed_unique h hnamed, fun h ↦ h ▸ hnamed⟩
  have htake {name' : Bytes} (hnamed : isNamed anchors name' entry = true) :
      OptionValue.text name ∈ .text name' :: keys ↔
        .text name ∈ keys ∨ isNamed anchors name entry = true := by
    rw [List.mem_cons, OptionValue.text.injEq, hiff hnamed, or_comm]
  rcases h with hunnamed | ⟨hnamed, hmem⟩ | ⟨hnamed, -, -⟩ | ⟨hnamed, -, -, -, -⟩
  · refine ⟨keys, hkeys, ?_⟩
    rw [hunnamed name]
    exact ⟨.inl, fun h ↦ h.resolve_right nofun⟩
  · cases hkeys
    refine ⟨keys, rfl, .inl, ?_⟩
    rintro (h | h)
    · exact h
    · exact (hiff hnamed).1 h ▸ hmem
  · obtain rfl : _ = some keys := hkeys
    exact ⟨_, rfl, htake hnamed⟩
  · obtain rfl : _ = some keys := hkeys
    exact ⟨_, rfl, htake hnamed⟩

/-- The keys that are taken after some entries are those before and those of the entries. -/
theorem EntersAll.taken {progress progress' : Progress σ}
    (h : EntersAll t anchors entries progress progress') (name : Bytes) {keys : List OptionValue}
    (hkeys : progress.1 = some keys) :
    ∃ keys', progress'.1 = some keys' ∧
      (.text name ∈ keys' ↔ .text name ∈ keys ∨ (field? anchors name entries).isSome = true) := by
  induction h generalizing keys with
  | nil => exact ⟨keys, hkeys, .inl, fun h ↦ h.resolve_right nofun⟩
  | @cons entry entries progress progress₁ progress' first rest ih =>
    obtain ⟨keys₁, hkeys₁, hiff⟩ := first.taken name hkeys
    obtain ⟨keys', hkeys', hiff'⟩ := ih hkeys₁
    refine ⟨keys', hkeys', ?_⟩
    rw [hiff', hiff]
    rcases hnamed : isNamed anchors name entry with _ | _
    · rw [field?_cons_of_not_isNamed hnamed]
      simp only [Bool.false_eq_true, or_false]
    · rw [field?_cons_of_isNamed hnamed]
      simp only [or_true, true_or, Option.isSome_some]

/-! ### What is kept and what is given -/

/-- The key of an entry, if the entry merges nothing. -/
def Target.Keyed (t : Target σ) (anchors : List (Nat × Node)) (key : OptionValue)
    (entry : Node × Node) : Prop :=
  entry.1.isMerge = false ∧ Decoded anchors (t.key entry.1) (some key)

/-- Whatever one entry after the other keeps is kept. -/
def Target.Keeps (t : Target σ) (anchors : List (Nat × Node)) (entries : List (Node × Node))
    (P : σ → Prop) : Prop :=
  ∀ {key : OptionValue} {entry : Node × Node} {whole whole' : σ}, entry ∈ entries →
    t.Keyed anchors key entry → Decoded anchors (t.put key entry.2 whole) whole' →
      P whole → P whole'

theorem Target.Keeps.mono {P : σ → Prop} {entries' : List (Node × Node)}
    (h : t.Keeps anchors entries P) (hsubset : entries' ⊆ entries) : t.Keeps anchors entries' P :=
  fun hmem ↦ h (hsubset hmem)

/-- An entry is put into the whole with its key, if at all. -/
theorem Runs.enter_keeps (ht : t.Steady) {P : σ → Prop} (hkeeps : t.Keeps s.anchors [entry] P)
    {progress progress' : Progress σ} (hs : s.merged = none)
    (h : Runs (Decode.enter t entry progress) s progress' s') (hP : P progress.2.2) :
    P progress'.2.2 := by
  rw [Decode.enter] at h
  by_cases hmerge : entry.1.isMerge = true
  · rw [if_pos hmerge] at h
    obtain ⟨rfl, -⟩ := Runs.pure_iff.1 h
    exact hP
  · rw [if_neg hmerge] at h
    obtain ⟨key, s₁, hkey, h⟩ := h.bind (ht.key _) fun key ↦ by
      rcases key with _ | key
      · exact steady_pure _
      · exact ht.enterKey _ _ _ _
    have hanchors := (ht.key _).anchors hkey.run
    have hs₁ := (ht.key _).merged hkey.run hs
    rcases key with _ | key
    · obtain ⟨rfl, -⟩ := Runs.pure_iff.1 h
      exact hP
    · obtain ⟨taken, done, whole⟩ := progress
      obtain ⟨free, s₂, hreserve, h⟩ := h.bind (steady_reserve _ _) fun free ↦ by
        rcases free with _ | taken
        · exact steady_pure _
        · exact (ht.putEntry _ _ _ _ _).bind fun _ ↦ steady_pure _
      obtain ⟨rfl, -⟩ := reserve_taken hreserve.run
      rcases free with _ | taken'
      · obtain ⟨rfl, -⟩ := Runs.pure_iff.1 h
        exact hP
      · obtain ⟨r, hput, rfl⟩ := Runs.map (f := fun r ↦ (taken', r.1, r.2)) h
          (ht.putEntry _ _ _ _ _)
        obtain ⟨-, rfl⟩ | ⟨-, -, whole', rfl, hrun⟩ := hput.putEntry ht
        · exact hP
        · exact hkeeps (List.mem_singleton_self _)
            ⟨Bool.eq_false_iff.2 hmerge, s, s₂, rfl, hs, hkey⟩ ⟨s₂, s', hanchors, hs₁, hrun⟩ hP

/-- Entries keep what each of them keeps. -/
theorem Runs.entriesFrom_keeps (ht : t.Steady) {P : σ → Prop}
    (hkeeps : t.Keeps s.anchors entries P) {progress progress' : Progress σ} (hs : s.merged = none)
    (h : Runs (Decode.entriesFrom t entries progress) s progress' s') (hP : P progress.2.2) :
    P progress'.2.2 := by
  induction entries generalizing s progress with
  | nil =>
    obtain ⟨rfl, -⟩ := Runs.pure_iff.1 h
    exact hP
  | cons entry entries ih =>
    obtain ⟨progress₁, s₁, henter, h⟩ := h.bind (ht.enter _ _) fun _ ↦ ht.entriesFrom _ _
    have hanchors := (ht.enter _ _).anchors henter.run
    have hs₁ := (ht.enter _ _).merged henter.run hs
    have hP₁ : P progress₁.2.2 :=
      henter.enter_keeps ht (hkeeps.mono (List.cons_subset_cons _ (List.nil_subset _))) hs hP
    refine ih ?_ hs₁ h hP₁
    rw [hanchors]
    exact hkeeps.mono (List.subset_cons_self _ _)

/-- Whatever one entry after the other keeps, of which each has a name. -/
def Target.KeepsNamed (t : Target σ) (anchors : List (Nat × Node)) (entries : List (Node × Node))
    (P : σ → Prop) : Prop :=
  ∀ {name : Bytes} {entry : Node × Node} {whole whole' : σ}, entry ∈ entries →
    isNamed anchors name entry = true →
      Decoded anchors (t.put (.text name) entry.2 whole) whole' → P whole → P whole'

/-- Where keys are texts, every entry with a key has a name. -/
theorem Target.TextKeyed.isNamed_of_keyed (ht : t.TextKeyed) {key : OptionValue}
    (h : t.Keyed anchors key entry) :
    ∃ name, key = .text name ∧ isNamed anchors name entry = true := by
  obtain ⟨hmerge, s, s', rfl, -, hrun⟩ := h
  rw [ht.key] at hrun
  obtain ⟨name, htext, hname⟩ := Option.map_eq_some_iff.1 hrun.textKey.symm
  exact ⟨name, hname.symm, isNamed_of_text? (ne_true_of_eq_false hmerge) htext⟩

/-- What entries with names keep is kept by all, where keys are texts. -/
theorem Target.TextKeyed.keeps (ht : t.TextKeyed) {P : σ → Prop}
    (h : t.KeepsNamed anchors entries P) : t.Keeps anchors entries P := by
  intro key entry whole whole' hmem hkeyed hput hP
  obtain ⟨name, rfl, hnamed⟩ := ht.isNamed_of_keyed hkeyed
  exact h hmem hnamed hput hP

/-- Entries with names keep what each of them keeps. -/
theorem EntersAll.keeps {P : σ → Prop} {progress progress' : Progress σ}
    (h : EntersAll t anchors entries progress progress') (hkeeps : t.KeepsNamed anchors entries P)
    (hP : P progress.2.2) : P progress'.2.2 := by
  induction h with
  | nil => exact hP
  | @cons entry entries progress progress₁ progress' first rest ih =>
    refine ih (fun hmem ↦ hkeeps (List.mem_cons_of_mem _ hmem)) ?_
    rcases first with _ | _ | _ | ⟨hnamed, -, -, -, hdecoded⟩
    · exact hP
    · exact hP
    · exact hP
    · exact hkeeps List.mem_cons_self hnamed hdecoded hP

/-- Every key is known, and a value that is given at a name makes something true that no other entry
makes false. -/
structure Target.Fills (t : Target σ) (anchors : List (Nat × Node)) (name : Bytes)
    (Given : Node → Prop) (Q : σ → Prop) : Prop where
  fields : t.fields = none
  keeps (entries : List (Node × Node)) : t.KeepsNamed anchors entries Q
  put {value : Node} {whole whole' : σ} : Given value →
    Decoded anchors (t.put (.text name) value whole) whole' → Q whole'

/-- What is given at a free name is there in the end. -/
theorem EntersAll.fills {Given : Node → Prop} {Q : σ → Prop}
    (hfills : t.Fills anchors name Given Q) {progress progress' : Progress σ}
    (h : EntersAll t anchors entries progress progress') (hfree : IsFree name progress.1)
    {value : Node} (hvalue : field? anchors name entries = some value) (hgiven : Given value) :
    Q progress'.2.2 := by
  induction h with
  | nil => cases hvalue
  | @cons entry entries progress progress₁ progress' first rest ih =>
    rcases hnamed : isNamed anchors name entry with _ | _
    · rw [field?_cons_of_not_isNamed hnamed] at hvalue
      exact ih ((first.isFree_iff hnamed).2 hfree) hvalue
    · rw [field?_cons_of_isNamed hnamed] at hvalue
      cases hvalue
      rcases first with hunnamed | ⟨hnamed', hmem⟩ | ⟨-, -, hunknown⟩ | ⟨hnamed', -, -, -, hdecoded⟩
      · exact absurd hnamed (ne_true_of_eq_false (hunnamed name))
      · obtain rfl := isNamed_unique hnamed hnamed'
        exact absurd hmem (isFree_some_iff.1 hfree)
      · unfold Target.knows at hunknown
        rw [hfills.fields] at hunknown
        cases hunknown
      · obtain rfl := isNamed_unique hnamed hnamed'
        exact rest.keeps (hfills.keeps _) (hfills.put hgiven hdecoded)

end Decode

end ColonGap.Yaml
