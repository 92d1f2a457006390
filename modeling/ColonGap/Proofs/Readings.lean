import ColonGap.Proofs.Decoding

/-!
# What scalars are read as

A run of a decoder at which everything fits is *quiet*. Such a run comes apart into quiet runs of
the steps, so that every scalar in it is either null or has a value of the type asked for. That
value is a function of the node and the anchors, which is said here without a decoder.
-/

namespace ColonGap.Yaml

namespace Node

/-- The value of a scalar, with the text it is written with. -/
def value? (anchors : List (Nat × Node)) (node : Node) : Option (OptionValue × Bytes) :=
  match node.behind anchors with
  | scalar _ tag literal text =>
    match Decode.scalarValue tag literal text with
    | .ok (_, v) => some (v, text)
    | .error _ => none
  | _ => none

/-- Whether a node is a scalar that is null. -/
def IsNull (anchors : List (Nat × Node)) (node : Node) : Prop :=
  ∃ written, node.value? anchors = some (.null, written)

/-- A scalar that is not null, as a value of the type that has what `accept` gives. -/
def read? {α : Type} (accept : OptionValue → Bytes → Option α) (anchors : List (Nat × Node))
    (node : Node) : Option α :=
  match node.value? anchors with
  | none | some (.null, _) => none
  | some (v, written) => accept v written

/-- The text of a scalar that is not null. -/
def text? : List (Nat × Node) → Node → Option Bytes :=
  read? Decode.textOf

/-- The texts of a sequence of scalars, without those that are null. -/
def texts? (anchors : List (Nat × Node)) (node : Node) : Option (List Bytes) :=
  match node.behind anchors with
  | sequence _ _ items => some (items.filterMap (text? anchors))
  | _ => none

/-- What a node stands for is no reference. -/
theorem behind_ne_reference (anchors : List (Nat × Node)) (node : Node) {line : Nat} {name : Bytes}
    {id number : Nat} : node.behind anchors ≠ reference line name id number := by
  intro h
  match node with
  | scalar .. | sequence .. | mapping .. => cases h
  | reference _ _ _ target =>
    rw [behind] at h
    rcases hfound : Document.anchor? anchors target with _ | found
    · rw [hfound] at h
      cases h
    · rw [hfound] at h
      match found with
      | scalar .. | sequence .. | mapping .. | reference .. => cases h

variable {α : Type} {accept : OptionValue → Bytes → Option α} {anchors : List (Nat × Node)}
  {node : Node} {v : OptionValue} {written : Bytes}

/-- A scalar has the value that its tag and its text come to. -/
theorem value?_of_scalarValue {line : Nat} {tag found : Bytes} {literal : Bool}
    (hbehind : node.behind anchors = scalar line tag literal written)
    (hvalue : Decode.scalarValue tag literal written = .ok (found, v)) :
    node.value? anchors = some (v, written) := by
  unfold value?
  rw [hbehind]
  dsimp only
  rw [hvalue]

/-- A scalar that is not null is read as its type accepts it. -/
theorem read?_of_value? (h : node.value? anchors = some (v, written)) (hv : v ≠ .null) :
    node.read? accept anchors = accept v written := by
  unfold read?
  rw [h]
  cases v with
  | null => exact absurd rfl hv
  | _ => rfl

/-- Null is read as nothing. -/
theorem read?_of_isNull (h : node.IsNull anchors) : node.read? accept anchors = none := by
  obtain ⟨written, h⟩ := h
  unfold read?
  rw [h]

/-- Null is no list of texts. -/
theorem texts?_of_isNull (h : node.IsNull anchors) : node.texts? anchors = none := by
  obtain ⟨written, h⟩ := h
  unfold value? at h
  unfold texts?
  rcases hbehind : node.behind anchors with _ | _ | _ | _
  · rfl
  · rw [hbehind] at h
    cases h
  · rfl
  · rfl

end Node

namespace Decode

variable {α β : Type} {m : Decode α} {s s' : Decoding} {a : α}

/-- A run at which everything fits. -/
structure Runs (m : Decode α) (s : Decoding) (a : α) (s' : Decoding) : Prop where
  run : m.run s = .ok (a, s')
  quiet : s'.mismatches = s.mismatches

/-- A quiet run of two steps comes apart into quiet runs of both. -/
theorem Runs.bind {f : α → Decode β} {b : β} (h : Runs (m >>= f) s b s') (hm : Steady m)
    (hf : ∀ a, Steady (f a)) : ∃ a s₁, Runs m s a s₁ ∧ Runs (f a) s₁ b s' := by
  obtain ⟨a, s₁, h₁, h₂⟩ := run_bind_ok.1 h.run
  have hle := hm.mismatches h₁
  have hle' := (hf a).mismatches h₂
  rw [h.quiet] at hle'
  have hquiet : s₁.mismatches = s.mismatches := hle'.eq_of_length_le hle.length_le
  exact ⟨a, s₁, ⟨h₁, hquiet⟩, h₂, h.quiet.trans hquiet.symm⟩

/-- A step that does nothing has its value. -/
theorem Runs.pure_iff {b : α} : Runs (pure b) s a s' ↔ a = b ∧ s' = s := by
  constructor
  · rintro ⟨hrun, -⟩
    cases hrun
    exact ⟨rfl, rfl⟩
  · rintro ⟨rfl, rfl⟩
    exact ⟨rfl, rfl⟩

/-- A quiet run of a function of a step comes from a quiet run of the step. -/
theorem Runs.map {f : α → β} {b : β} (h : Runs (do return f (← m)) s b s') (hm : Steady m) :
    ∃ a, Runs m s a s' ∧ b = f a := by
  obtain ⟨a, s₁, h₁, h₂⟩ := h.bind hm fun _ ↦ steady_pure _
  obtain ⟨rfl, rfl⟩ := Runs.pure_iff.1 h₂
  exact ⟨a, h₁, rfl⟩

/-- A step that looks at the anchors goes one of two ways. -/
theorem Runs.ite_anchors (p : List (Nat × Node) → Bool) {m' : Decode α}
    (h : Runs (do if p (← get).anchors then m else m') s a s') :
    (p s.anchors = true ∧ Runs m s a s') ∨ (p s.anchors = false ∧ Runs m' s a s') := by
  obtain ⟨_, _, hget, hrun⟩ := run_bind_ok.1 h.run
  cases hget
  rcases hp : p s.anchors with _ | _
  · rw [hp] at hrun
    exact .inr ⟨rfl, hrun, h.quiet⟩
  · rw [hp] at hrun
    exact .inl ⟨rfl, hrun, h.quiet⟩

theorem not_runs_throw (fault : Fault) : ¬ Runs (throw fault : Decode α) s a s' := by
  rintro ⟨hrun, -⟩
  cases hrun

/-- A note is not quiet. -/
theorem not_runs_note (mismatch : Mismatch) {u : Unit} : ¬ Runs (note mismatch) s u s' := by
  rintro ⟨hrun, hquiet⟩
  cases hrun
  exact absurd (List.append_right_eq_self.1 hquiet) (List.cons_ne_nil _ _)

/-- To note that a node does not fit is not quiet. -/
theorem not_runs_misfit {type : Bytes} {node : Node} {u : Unit}
    (hnode : ∀ line name id number, node ≠ .reference line name id number) :
    ¬ Runs (misfit type node) s u s' := by
  match node with
  | .scalar .. | .sequence .. | .mapping .. => exact not_runs_note _
  | .reference line name id number => exact absurd rfl (hnode line name id number)

/-- Where everything fits, the keys of a mapping differ. -/
theorem Runs.keysDiffer {entries : List (Node × Node)} {differ : Bool}
    (h : Runs (keysDiffer entries) s differ s') : differ = true ∧ s' = s := by
  obtain ⟨_, s₁, hnotes, h⟩ := h.bind (steady_forM_note _) fun _ ↦ steady_pure _
  obtain ⟨rfl, rfl⟩ := Runs.pure_iff.1 h
  rcases hrepeated : allRepeatedKeys entries with _ | ⟨item, items⟩
  · rw [hrepeated] at hnotes
    exact ⟨rfl, (Runs.pure_iff.1 hnotes).2⟩
  · rw [hrepeated] at hnotes
    obtain ⟨_, _, hnote, -⟩ := hnotes.bind (steady_note item) fun _ ↦ steady_forM_note items
    exact absurd hnote (not_runs_note item)

/-- A step that does not look at the state succeeds if its value is there. -/
theorem Runs.liftM_bind {x : Except Fault α} {f : α → Decode β} {b : β}
    (h : Runs (liftM x >>= f) s b s') : ∃ a, x = .ok a ∧ Runs (f a) s b s' := by
  rcases x with fault | a
  · exact absurd h.run nofun
  · exact ⟨a, rfl, h.run, h.quiet⟩

/-- What follows a note that a node does not fit makes it no quieter. -/
theorem not_runs_misfit_bind {type : Bytes} {node : Node} {m' : Decode α} (hm' : Steady m')
    (hnode : ∀ line name id number, node ≠ .reference line name id number) :
    ¬ Runs (do misfit type node; m') s a s' := by
  intro h
  obtain ⟨_, _, hmisfit, -⟩ := h.bind (steady_misfit _ _) fun _ ↦ hm'
  exact not_runs_misfit hnode hmisfit

/-- What follows a note that a mapping does not fit makes it no quieter. -/
theorem not_runs_misfitMapping_bind {type : Bytes} {node : Node} {entries : List (Node × Node)}
    {m' : Decode α} (hm' : Steady m')
    (hnode : ∀ line name id number, node ≠ .reference line name id number) :
    ¬ Runs (do misfitMapping type node entries; m') s a s' := by
  intro h
  obtain ⟨_, _, hmapping, -⟩ := h.bind (steady_misfitMapping _ _ _) fun _ ↦ hm'
  obtain ⟨differ, _, hkeys, hmisfit⟩ := hmapping.bind (steady_keysDiffer _) fun _ ↦
    steady_ite (steady_misfit _ _) (steady_pure _)
  obtain ⟨rfl, -⟩ := hkeys.keysDiffer
  exact not_runs_misfit hnode hmisfit

/-- A quiet visit decodes what is behind the node, and leaves the anchors and the keys that are
taken. -/
theorem Runs.visit {decode : Node → Decode α} {node : Node} (h : Runs (visit decode node) s a s') :
    ∃ s₁ s₂, Runs (decode (node.behind s.anchors)) s₁ a s₂ ∧ s₁.anchors = s.anchors ∧
      s₁.merged = s.merged ∧ s₂.merged = s'.merged := by
  obtain ⟨s₁, s₂, hrun, hanchors, hmismatches, hmerged, -, hmismatches', hmerged'⟩ :=
    run_visit h.run
  refine ⟨s₁, s₂, ⟨hrun, ?_⟩, hanchors, hmerged, hmerged'⟩
  rw [hmismatches', hmismatches, h.quiet]

/-! ### Scalars and lists -/

/-- A scalar has a value of the type asked for, unless it is null. -/
theorem Runs.scalar {type : String} {accept : OptionValue → Bytes → Option α} {node : Node}
    {r : Option α} (h : Runs (scalar type accept node) s r s') :
    r = node.read? accept s.anchors ∧ (r = none → node.IsNull s.anchors) := by
  obtain ⟨s₁, s₂, hdecode, -, -, -⟩ := h.visit
  rcases hbehind : node.behind s.anchors with ⟨line, tag, literal, written⟩ | _ | _ | _
  · rw [hbehind] at hdecode
    obtain ⟨⟨found, v⟩, hvalue, hdecode⟩ := hdecode.liftM_bind
    have hread := Node.value?_of_scalarValue hbehind hvalue
    split at hdecode
    case h_1 hnull =>
      obtain ⟨rfl, -⟩ := Runs.pure_iff.1 hdecode
      obtain rfl : v = .null := hnull
      exact ⟨(Node.read?_of_isNull ⟨written, hread⟩).symm, fun _ ↦ ⟨written, hread⟩⟩
    case h_2 hnot =>
      rw [Node.read?_of_value? hread hnot]
      dsimp only at hdecode
      rcases haccept : accept v written with _ | b
      · rw [haccept] at hdecode
        exact absurd hdecode (not_runs_misfit_bind (steady_pure _) nofun)
      · rw [haccept] at hdecode
        obtain ⟨rfl, -⟩ := Runs.pure_iff.1 hdecode
        exact ⟨rfl, nofun⟩
  · rw [hbehind] at hdecode
    exact absurd hdecode (not_runs_misfit_bind (steady_pure _) nofun)
  · rw [hbehind] at hdecode
    exact absurd hdecode (not_runs_misfitMapping_bind (steady_pure _) nofun)
  · exact absurd hbehind (Node.behind_ne_reference _ _)

/-- The texts of a list, where nulls do not count. -/
theorem Runs.mapM_text {nodes : List Node} {r : List (Option Bytes)}
    (h : Runs (nodes.mapM text) s r s') : r.filterMap id = nodes.filterMap (Node.text? s.anchors) := by
  induction nodes generalizing s r with
  | nil =>
    obtain ⟨rfl, -⟩ := Runs.pure_iff.1 h
    rfl
  | cons node nodes ih =>
    rw [List.mapM_cons] at h
    obtain ⟨first, s₁, hfirst, h⟩ := h.bind (steady_scalar _ _ _) fun _ ↦
      (steady_mapM (steady_scalar _ _) _).bind fun _ ↦ steady_pure _
    obtain ⟨rest, hrest, rfl⟩ := h.map (steady_mapM (steady_scalar _ _) _)
    obtain ⟨rfl, -⟩ := hfirst.scalar
    have hanchors := (steady_scalar _ _ _).anchors hfirst.run
    rw [List.filterMap_cons, List.filterMap_cons, ih hrest, hanchors]
    rfl

/-- A list of texts is the one of the texts in a sequence, unless it is null. -/
theorem Runs.texts {node : Node} {r : Option (Option (List Bytes))}
    (h : Runs (texts node) s r s') :
    (node.IsNull s.anchors ∧ r = some none) ∨
      ∃ list, node.texts? s.anchors = some list ∧ r = some (some list) := by
  obtain ⟨s₁, s₂, hdecode, hanchors, -, -⟩ := h.visit
  rcases hbehind : node.behind s.anchors with ⟨line, tag, literal, written⟩ | ⟨line, tag, items⟩ |
    ⟨line, tag, entries⟩ | _
  · rw [hbehind] at hdecode
    obtain ⟨⟨found, v⟩, hvalue, hdecode⟩ := hdecode.liftM_bind
    have hread := Node.value?_of_scalarValue hbehind hvalue
    split at hdecode
    case h_1 hnull =>
      obtain ⟨rfl, -⟩ := Runs.pure_iff.1 hdecode
      obtain rfl : v = .null := hnull
      exact .inl ⟨⟨written, hread⟩, rfl⟩
    case h_2 hnot => exact absurd hdecode (not_runs_misfit_bind (steady_pure _) nofun)
  · rw [hbehind] at hdecode
    obtain ⟨list, hlist, rfl⟩ := hdecode.map (steady_mapM (steady_scalar _ _) _)
    refine .inr ⟨_, ?_, congrArg (some ∘ some) hlist.mapM_text⟩
    unfold Node.texts?
    rw [hbehind, hanchors]
  · rw [hbehind] at hdecode
    exact absurd hdecode (not_runs_misfitMapping_bind (steady_pure _) nofun)
  · exact absurd hbehind (Node.behind_ne_reference _ _)

end Decode

/-! ### Names of fields -/

/-- A text that stands for nothing but itself where it is written plainly, whatever tag is asked
for. -/
def IsPlainText (text : Bytes) : Prop :=
  ∀ tag, Scalar.plainValue tag text = (textTag, .text text)

/-- A plain text is resolved to itself, and to a binary one only where its tag says so. -/
theorem IsPlainText.resolve {written tag found : Bytes} {v : OptionValue}
    (hwritten : IsPlainText written) (h : Scalar.resolve tag written = .ok (found, v)) :
    v = .text written ∧ (found = binaryTag → shortTag tag = binaryTag) := by
  unfold Scalar.resolve at h
  dsimp only at h
  rw [hwritten] at h
  split at h
  · cases h
    exact ⟨rfl, id⟩
  · split at h
    · cases h
      exact ⟨rfl, fun htag ↦ absurd htag (by decide)⟩
    · dsimp only at h
      split at h
      · cases h
        exact ⟨rfl, fun htag ↦ absurd htag (by decide)⟩
      · cases h

/-- Such a text is never a value of another type; only base 64 may make it another text. -/
theorem IsPlainText.scalarValue {written tag found : Bytes} {literal : Bool} {v : OptionValue}
    (hwritten : IsPlainText written) (h : Decode.scalarValue tag literal written = .ok (found, v)) :
    ∃ s, v = .text s ∧ (shortTag tag ≠ binaryTag → s = written) := by
  unfold Decode.scalarValue at h
  split at h
  · cases h
    exact ⟨written, rfl, fun _ ↦ rfl⟩
  · rcases hresolve : Scalar.resolve tag written with fault | ⟨tag', value⟩
    · rw [hresolve] at h
      cases h
    · obtain ⟨rfl, htag⟩ := hwritten.resolve hresolve
      rw [hresolve] at h
      dsimp only at h
      split at h
      case isTrue hbinary =>
        split at h
        · cases h
          exact ⟨_, rfl, fun hne ↦ absurd (htag (eq_of_beq hbinary)) hne⟩
        · cases h
      case isFalse =>
        cases h
        exact ⟨written, rfl, fun _ ↦ rfl⟩

/-- A scalar that is written as a plain text has some text for its value. -/
theorem IsPlainText.value? {anchors : List (Nat × Node)} {node : Node} {written : Bytes}
    {v : OptionValue} (hwritten : IsPlainText written)
    (h : node.value? anchors = some (v, written)) : ∃ s, v = .text s := by
  unfold Node.value? at h
  split at h
  · split at h
    case h_1 hvalue =>
      cases h
      obtain ⟨s, hs, -⟩ := hwritten.scalarValue hvalue
      exact ⟨s, hs⟩
    case h_2 => cases h
  · cases h

theorem Node.text?_of_value? {anchors : List (Nat × Node)} {node : Node} {s written : Bytes}
    (h : node.value? anchors = some (.text s, written)) : node.text? anchors = some s :=
  read?_of_value? h nofun

/-- A scalar is a certain plain text whether it is read as a text or as what it is. -/
theorem Node.text?_eq_some_iff {anchors : List (Nat × Node)} {node : Node} {name : Bytes}
    (hname : IsPlainText name) :
    node.text? anchors = some name ↔ ∃ written, node.value? anchors = some (.text name, written) := by
  constructor
  · intro h
    rcases hvalue : node.value? anchors with _ | ⟨v, written⟩
    · unfold text? read? at h
      rw [hvalue] at h
      cases h
    · by_cases hnull : v = .null
      · rw [hnull] at hvalue
        rw [text?, read?_of_isNull ⟨written, hvalue⟩] at h
        cases h
      · rw [text?, read?_of_value? hvalue hnull] at h
        by_cases htext : ∃ s, v = .text s
        · obtain ⟨s, rfl⟩ := htext
          cases h
          exact ⟨written, rfl⟩
        · have hwritten : Decode.textOf v written = some written := by
            unfold Decode.textOf
            split
            · exact absurd ⟨_, rfl⟩ htext
            · rfl
          rw [hwritten] at h
          cases h
          exact absurd (hname.value? hvalue) htext
  · rintro ⟨written, h⟩
    exact text?_of_value? h

namespace Decode

variable {s s' : Decoding}

/-- A node is a certain text as any value if and only if it is a scalar that has this value. -/
theorem Runs.any_eq_text_iff {fuel : Nat} {node : Node} {r : Option OptionValue}
    (h : Runs (any fuel node) s r s') (name : Bytes) :
    r = some (.text name) ↔ ∃ written, node.value? s.anchors = some (.text name, written) := by
  rcases fuel with _ | fuel
  · exact absurd h (not_runs_throw _)
  · obtain ⟨s₁, s₂, hdecode, hanchors, -, -⟩ := h.visit
    rcases hbehind : node.behind s.anchors with ⟨line, tag, literal, written⟩ | ⟨line, tag, items⟩ |
      ⟨line, tag, entries⟩ | _
    · rw [hbehind] at hdecode
      obtain ⟨⟨found, v⟩, hvalue, hdecode⟩ := hdecode.liftM_bind
      obtain ⟨rfl, -⟩ := Runs.pure_iff.1 hdecode
      rw [Node.value?_of_scalarValue hbehind hvalue]
      constructor
      · rintro ⟨⟩
        exact ⟨written, rfl⟩
      · rintro ⟨_, ⟨⟩⟩
        rfl
    · rw [hbehind] at hdecode
      obtain ⟨list, s₃, -, hdecode⟩ := run_bind_ok.1 hdecode.run
      cases hdecode
      unfold Node.value?
      rw [hbehind]
      exact ⟨nofun, nofun⟩
    · rw [hbehind] at hdecode
      have hr : r ≠ some (.text name) := by
        obtain ⟨differ, s₃, -, hdecode⟩ := run_bind_ok.1 hdecode.run
        split at hdecode
        · obtain ⟨_, _, -, hdecode⟩ := run_bind_ok.1 hdecode
          split at hdecode
          · obtain ⟨fields, _, -, hdecode⟩ := run_bind_ok.1 hdecode
            cases hdecode
            exact nofun
          · obtain ⟨fields, _, -, hdecode⟩ := run_bind_ok.1 hdecode
            cases hdecode
            exact nofun
        · cases hdecode
          exact nofun
      unfold Node.value?
      rw [hbehind]
      exact ⟨fun h ↦ absurd h hr, nofun⟩
    · exact absurd hbehind (Node.behind_ne_reference _ _)

end Decode

end ColonGap.Yaml
