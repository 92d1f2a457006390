import ColonGap.Proofs.Keys
import ColonGap.Proofs.Merging

/-!
# What nodes set fields to

A field that a node sets has the value that the node is read as, which is said here without a
decoder. A scalar or a list of texts is laid over what the field was before (`LaysOver`). Where any
value will do, the node is read as what it is (`Node.IsValue`): a relation by cases on the node, as
the references in a node may lead back to it; decoding ends with a fault then.
-/

namespace ColonGap.Yaml

open Decode

/-- How the value of a field comes from a node that it is set to, its standard value and what null
makes of that. -/
structure LaysOver {α : Type} (anchors : List (Nat × Node)) (set : Option Node)
    (read? : Node → Option α) (standard null value : α) : Prop where
  unset : set = none → value = standard
  null : ∀ node, set = some node → node.IsNull anchors → value = null
  given : ∀ node, set = some node → ¬ node.IsNull anchors → read? node = some value

section LaysOver

variable {σ α : Type} {t : Decode.Target σ} {anchors : List (Nat × Node)} {name : Bytes}
  {set : Option Node} {start value : σ}

/-- A scalar is laid over a field; null leaves the field as it is. -/
theorem laysOver_scalar {get : σ → α} (type : String) {accept : OptionValue → Bytes → Option α}
    (hput : ∀ {node whole whole'}, Decoded anchors (t.put (.text name) node whole) whole' →
      ∃ r, Decoded anchors (scalar type accept node) r ∧ get whole' = r.getD (get whole))
    (h : t.Sets anchors name get set start value) :
    LaysOver anchors set (Node.read? accept anchors) (get start) (get start) (get value) := by
  obtain hsame | ⟨hbefore, hdecoded, hbehind⟩ := h
  · exact ⟨fun _ ↦ hsame, nofun, nofun⟩
  · obtain ⟨r, ⟨s, s', hs, -, hrun⟩, hget⟩ := hput hdecoded
    obtain ⟨hread, hnull⟩ := hrun.scalar
    rw [hs] at hread hnull
    refine ⟨nofun, ?_, ?_⟩
    · rintro node ⟨⟩ hisNull
      rw [hbehind, hget, hread, Node.read?_of_isNull hisNull]
      exact hbefore
    · rintro node ⟨⟩ hnotNull
      rcases r with _ | a
      · exact absurd (hnull rfl) hnotNull
      · rw [hbehind, hget, ← hread]
        rfl

/-- A list of texts is laid over a field; null makes it the missing list. -/
theorem laysOver_texts {get : σ → Option (List Bytes)}
    (hput : ∀ {node whole whole'}, Decoded anchors (t.put (.text name) node whole) whole' →
      ∃ r, Decoded anchors (texts node) r ∧ get whole' = r.getD (get whole))
    (h : t.Sets anchors name get set start value) :
    LaysOver anchors set (fun node ↦ (node.texts? anchors).map some) (get start) none
      (get value) := by
  obtain hsame | ⟨-, hdecoded, hbehind⟩ := h
  · exact ⟨fun _ ↦ hsame, nofun, nofun⟩
  · obtain ⟨r, ⟨s, s', hs, -, hrun⟩, hget⟩ := hput hdecoded
    have hread := hrun.texts
    rw [hs] at hread
    refine ⟨nofun, ?_, ?_⟩
    · rintro node ⟨⟩ hisNull
      obtain ⟨-, rfl⟩ | ⟨list, hlist, -⟩ := hread
      · rw [hbehind, hget]
        rfl
      · rw [Node.texts?_of_isNull hisNull] at hlist
        cases hlist
    · rintro node ⟨⟩ hnotNull
      obtain ⟨hisNull, -⟩ | ⟨list, hlist, rfl⟩ := hread
      · exact absurd hisNull hnotNull
      · rw [hbehind, hget, hlist]
        rfl

end LaysOver

/-! ### Any value -/

/-- The value of a node, whatever it is. -/
inductive Node.IsValue (anchors : List (Nat × Node)) : Node → OptionValue → Prop
  | scalar {node v written} (value : node.value? anchors = some (v, written)) :
      IsValue anchors node v
  | list {node line tag items values} (sequence : node.behind anchors = .sequence line tag items)
      (each : List.Forall₂ (IsValue anchors) items values) : IsValue anchors node (.list values)
  /-- Where all keys are texts, every field is what an entry of its name says, be it an entry of the
  mapping itself or one that it merges, and no name is lost. -/
  | record {node line tag own entries fields}
      (mapping : node.behind anchors = .mapping line tag own)
      (textKeys : hasTextKeys anchors own = true)
      (spread : HasEntries anchors (some node) entries)
      (ascending : Entries.Ascending fields)
      (source : Bytes × OptionValue → Node × Node)
      (named : ∀ field ∈ fields,
        source field ∈ entries ∧ isNamed anchors field.1 (source field) = true)
      (values : ∀ field ∈ fields, IsValue anchors (source field).2 field.2)
      (complete : ∀ name, name ≠ utf8 "<<" → (field? anchors name entries).isSome = true →
        (Entries.get? name fields).isSome = true) :
      IsValue anchors node (.record fields)
  /-- Where they are not, every key has the value that some entry gives it. -/
  | mapping {node line tag own entries pairs}
      (mapping : node.behind anchors = .mapping line tag own)
      (otherKeys : hasTextKeys anchors own = false)
      (spread : HasEntries anchors (some node) entries)
      (source : OptionValue × OptionValue → Node × Node)
      (keyed : ∀ pair ∈ pairs, source pair ∈ entries ∧ (source pair).1.isMerge = false)
      (keys : ∀ pair ∈ pairs, IsValue anchors (source pair).1 pair.1)
      (values : ∀ pair ∈ pairs, IsValue anchors (source pair).2 pair.2) :
      IsValue anchors node (.mapping pairs)

namespace Decode

variable {anchors : List (Nat × Node)} {s s' : Decoding} {node : Node} {fuel : Nat}

/-- What decoding to any value gives is the value of the node. -/
def ReadsAny (any : Node → Decode (Option OptionValue)) : Prop :=
  ∀ {s s' : Decoding} {node : Node} {r : Option OptionValue}, s.merged = none →
    Runs (any node) s r s' → ∃ v, r = some v ∧ node.IsValue s.anchors v

/-- A list is decoded to the values of its items. -/
theorem Runs.mapM_any {any : Node → Decode (Option OptionValue)}
    (hsteady : ∀ node, Steady (any node)) (hany : ReadsAny any) {nodes : List Node} {r : List (Option OptionValue)} (hs : s.merged = none)
    (h : Runs (nodes.mapM any) s r s') :
    List.Forall₂ (Node.IsValue s.anchors) nodes (r.filterMap id) := by
  induction nodes generalizing s r with
  | nil =>
    obtain ⟨rfl, -⟩ := Runs.pure_iff.1 h
    exact .nil
  | cons node nodes ih =>
    rw [List.mapM_cons] at h
    obtain ⟨first, s₁, hfirst, h⟩ := h.bind (hsteady node) fun _ ↦
      (steady_mapM hsteady _).bind fun _ ↦ steady_pure _
    obtain ⟨rest, hrest, rfl⟩ := h.map (steady_mapM hsteady _)
    obtain ⟨v, rfl, hv⟩ := hany hs hfirst
    have hrest := ih ((hsteady node).merged hfirst.run hs) hrest
    rw [(hsteady node).anchors hfirst.run] at hrest
    exact .cons hv hrest

/-! ### Records -/

section Record

variable {any : Node → Decode (Option OptionValue)} {name : Bytes}
  {entries : List (Node × Node)}

theorem textKeyed_recordTarget (hsteady : ∀ node, Steady (any node)) :
    (recordTarget any).TextKeyed where
  key := rfl
  put := (steady_recordTarget hsteady).put

/-- A field is set to the value of its node. -/
theorem put_recordTarget (hsteady : ∀ node, Steady (any node)) (hany : ReadsAny any)
    {fields fields' : Entries OptionValue}
    (h : Decoded anchors ((recordTarget any).put (.text name) node fields) fields') :
    ∃ v, node.IsValue anchors v ∧ fields' = fields.put name v := by
  obtain ⟨s, s', rfl, hs, hrun⟩ := h
  obtain ⟨r, s₁, hr, hrun⟩ := hrun.bind (hsteady node) fun r ↦ by
    rcases r with _ | v <;> exact steady_pure _
  obtain ⟨v, rfl, hv⟩ := hany hs hr
  obtain ⟨rfl, -⟩ := Runs.pure_iff.1 hrun
  exact ⟨v, hv, rfl⟩

/-- The fields are in order, and every field is what an entry says. -/
theorem keeps_fields (hsteady : ∀ node, Steady (any node)) (hany : ReadsAny any) :
    (recordTarget any).KeepsNamed anchors entries fun fields ↦ fields.Ascending ∧
      ∀ field ∈ fields, ∃ entry ∈ entries,
        isNamed anchors field.1 entry = true ∧ entry.2.IsValue anchors field.2 := by
  rintro name entry fields fields' hmem hnamed hput ⟨hascending, hfields⟩
  obtain ⟨v, hv, rfl⟩ := put_recordTarget hsteady hany hput
  refine ⟨hascending.put name v, fun field hfield ↦ ?_⟩
  rcases Entries.mem_of_mem_put hfield with rfl | hfield
  · exact ⟨entry, hmem, hnamed, hv⟩
  · exact hfields field hfield

/-- Once a name has a field it has one in the end. -/
theorem fills_field (hsteady : ∀ node, Steady (any node)) (hany : ReadsAny any) (name : Bytes) :
    (recordTarget any).Fills anchors name (fun _ ↦ True) fun fields ↦
      (Entries.get? name fields).isSome = true where
  fields := rfl
  keeps entries := by
    intro name' entry fields fields' hmem hnamed hput hfields
    obtain ⟨v, -, rfl⟩ := put_recordTarget hsteady hany hput
    rw [Entries.get?_put]
    split
    · rfl
    · exact hfields
  put := by
    intro node fields fields' _ hput
    obtain ⟨v, -, rfl⟩ := put_recordTarget hsteady hany hput
    rw [Entries.get?_put, if_pos rfl]
    rfl

/-- A mapping whose keys are texts is decoded to its value. -/
theorem Runs.record (hany : ReadsAny (Decode.any fuel)) {line : Nat} {tag : Bytes}
    (hbehind : node.behind s.anchors = .mapping line tag entries)
    (hkeys : hasTextKeys s.anchors entries = true) (hs : s.merged = none)
    {fields : Entries OptionValue}
    (h : Runs (Decode.mappingEntries (Decode.any fuel) (recordTarget (Decode.any fuel)) fuel
      (recordTarget (Decode.any fuel)) entries []) s fields s') :
    node.IsValue s.anchors (.record fields) := by
  have ht := textKeyed_recordTarget (steady_any fuel)
  obtain ⟨inner, hinner, hkeeps⟩ := h.mappingEntries_keeps ht.steady ht.steady hs
  obtain ⟨hascending, hfields⟩ := hkeeps _ (ht.keeps (keeps_fields (steady_any fuel) hany))
    (ht.keeps (keeps_fields (steady_any fuel) hany)) ⟨.nil, nofun⟩
  choose! source hmem hnamed hvalues using hfields
  refine .record hbehind hkeys (hasEntries_of_mapping hbehind hinner) hascending source
    (fun field hfield ↦ ⟨hmem field hfield, hnamed field hfield⟩) hvalues ?_
  intro name hne hsome
  obtain ⟨value, hvalue⟩ := Option.isSome_iff_exists.1 hsome
  obtain ⟨inner', hinner', hfills⟩ := h.mappingEntries_fills ht ht
    (fills_field (steady_any fuel) hany name) (fills_field (steady_any fuel) hany name) hne hs
  obtain rfl := hinner.unique hinner'
  exact hfills value hvalue trivial

end Record

/-! ### Mappings with other keys -/

section Mapping

variable {any : Node → Decode (Option OptionValue)} {entries : List (Node × Node)}

/-- Setting the value of a key brings the key and the value in together and nothing else. -/
theorem mem_of_mem_keyPut {key value : OptionValue} {pair : OptionValue × OptionValue}
    {pairs : List (OptionValue × OptionValue)} (h : pair ∈ Key.put key value pairs) :
    pair = (key, value) ∨ pair ∈ pairs := by
  induction pairs with
  | nil => exact .inl (List.mem_singleton.1 h)
  | cons first pairs ih =>
    obtain ⟨k, v⟩ := first
    rw [Key.put] at h
    split at h
    · exact (List.mem_cons.1 h).imp_right (List.mem_cons_of_mem _)
    · split at h
      · rcases List.mem_cons.1 h with rfl | h
        · exact .inr List.mem_cons_self
        · exact (ih h).imp_right (List.mem_cons_of_mem _)
      · exact List.mem_cons.1 h

/-- Every key and its value are what an entry says. -/
theorem keeps_pairs (hsteady : ∀ node, Steady (any node)) (hany : ReadsAny any) :
    (entryTarget any).Keeps anchors entries fun pairs ↦
      ∀ pair ∈ pairs, ∃ entry ∈ entries, entry.1.isMerge = false ∧
        entry.1.IsValue anchors pair.1 ∧ entry.2.IsValue anchors pair.2 := by
  rintro key entry pairs pairs' hmem ⟨hmerge, t, t', rfl, ht, hkey⟩ hput hpairs
  obtain ⟨s, s', hanchors, hs, hrun⟩ := hput
  obtain ⟨_, ⟨⟩, hk⟩ := hany ht hkey
  change Runs (if Key.isCollection key = true then _ else _) s pairs' s' at hrun
  split at hrun
  case isTrue => exact absurd hrun (not_runs_throw _)
  case isFalse =>
    obtain ⟨r, s₁, hr, hrun⟩ := hrun.bind (hsteady entry.2) fun r ↦ by
      rcases r with _ | v <;> exact steady_pure _
    obtain ⟨v, rfl, hv⟩ := hany hs hr
    obtain ⟨rfl, -⟩ := Runs.pure_iff.1 hrun
    rw [hanchors] at hv
    intro pair hpair
    rcases mem_of_mem_keyPut hpair with rfl | hpair
    · exact ⟨entry, hmem, hmerge, hk, hv⟩
    · exact hpairs pair hpair

/-- A mapping with other keys is decoded to its value. -/
theorem Runs.pairs (hany : ReadsAny (Decode.any fuel)) {line : Nat} {tag : Bytes}
    (hbehind : node.behind s.anchors = .mapping line tag entries)
    (hkeys : hasTextKeys s.anchors entries = false) (hs : s.merged = none)
    {pairs : List (OptionValue × OptionValue)}
    (h : Runs (Decode.mappingEntries (Decode.any fuel) (entryTarget (Decode.any fuel)) fuel
      (entryTarget (Decode.any fuel)) entries []) s pairs s') :
    node.IsValue s.anchors (.mapping pairs) := by
  have ht := steady_entryTarget (steady_any fuel)
  obtain ⟨inner, hinner, hkeeps⟩ := h.mappingEntries_keeps ht ht hs
  have hpairs := hkeeps _ (keeps_pairs (steady_any fuel) hany) (keeps_pairs (steady_any fuel) hany)
    nofun
  choose! source hmem hmerge hk hv using hpairs
  exact .mapping hbehind hkeys (hasEntries_of_mapping hbehind hinner) source
    (fun pair hpair ↦ ⟨hmem pair hpair, hmerge pair hpair⟩) hk hv

end Mapping

/-! ### All together -/

/-- Where everything fits, decoding to any value gives the value of the node. -/
theorem readsAny (fuel : Nat) : ReadsAny (any fuel) := by
  induction fuel with
  | zero => exact fun _ h ↦ absurd h (not_runs_throw _)
  | succ fuel ih =>
    intro s s' node r hs h
    obtain ⟨s₁, s₂, hrun, hanchors, hmerged, -⟩ := h.visit
    have hs₁ := hmerged.trans hs
    rcases hbehind : node.behind s.anchors with ⟨line, tag, literal, written⟩ |
      ⟨line, tag, items⟩ | ⟨line, tag, entries⟩ | _
    · rw [hbehind] at hrun
      obtain ⟨⟨found, v⟩, hvalue, hrun⟩ := hrun.liftM_bind
      obtain ⟨rfl, -⟩ := Runs.pure_iff.1 hrun
      exact ⟨v, rfl, .scalar (Node.value?_of_scalarValue hbehind hvalue)⟩
    · rw [hbehind] at hrun
      obtain ⟨values, hvalues, rfl⟩ := hrun.map (steady_mapM (steady_any fuel) _)
      have heach := hvalues.mapM_any (steady_any fuel) ih hs₁
      rw [hanchors] at heach
      exact ⟨_, rfl, .list hbehind heach⟩
    · rw [hbehind] at hrun
      have hrecord := steady_recordTarget (steady_any fuel)
      have hentry := steady_entryTarget (steady_any fuel)
      obtain ⟨differ, s₃, hkeys, hdecoded⟩ := hrun.bind (steady_keysDiffer _) fun _ ↦
        steady_ite (steady_ite_anchors (hasTextKeys · entries)
          ((hrecord.mappingEntries (steady_any fuel) fuel hrecord _ _).bind fun _ ↦ steady_pure _)
          ((hentry.mappingEntries (steady_any fuel) fuel hentry _ _).bind fun _ ↦ steady_pure _))
          (steady_pure _)
      obtain ⟨rfl, rfl⟩ := hkeys.keysDiffer
      rw [← hanchors] at hbehind ⊢
      obtain ⟨htext, hdecoded⟩ | ⟨hother, hdecoded⟩ :=
        Runs.ite_anchors (hasTextKeys · entries) hdecoded
      · obtain ⟨fields, hfields, rfl⟩ :=
          hdecoded.map (hrecord.mappingEntries (steady_any fuel) fuel hrecord _ _)
        exact ⟨_, rfl, hfields.record ih hbehind htext hs₁⟩
      · obtain ⟨pairs, hpairs, rfl⟩ :=
          hdecoded.map (hentry.mappingEntries (steady_any fuel) fuel hentry _ _)
        exact ⟨_, rfl, hpairs.pairs ih hbehind hother hs₁⟩
    · exact absurd hbehind (Node.behind_ne_reference _ _)

theorem Decoded.any {r : Option OptionValue} (h : Decoded anchors (any fuel node) r) :
    ∃ v, r = some v ∧ node.IsValue anchors v := by
  obtain ⟨s, s', rfl, hs, hrun⟩ := h
  exact readsAny fuel hs hrun

end Decode

end ColonGap.Yaml
