import ColonGap.Text.Bytes

/-!
# Lists with keys

A finite map from texts to values is the list of its entries in the order of their keys, each key
occurring once. So two maps with the same entries are equal.

Looking up and setting values are defined for entries in any order (`Entries`), since a tree that
holds entries of its own kind cannot hold proofs about them. Setting a value keeps entries in order
(`Entries.Ascending.put`), and a `KeyedList` is entries together with the proof that they are.
-/

namespace ColonGap

/-- Values with their keys, in whatever order. -/
abbrev Entries (α : Type) := List (Bytes × α)

namespace Entries

variable {α : Type} {k key : Bytes} {v value : α} {entries : Entries α}

/-- The value of a key. -/
def get? (key : Bytes) (entries : Entries α) : Option α :=
  (entries.find? fun entry ↦ entry.1 == key).map (·.2)

/-- Set the value of a key. -/
def put (key : Bytes) (value : α) : Entries α → Entries α
  | [] => [(key, value)]
  | (k, v) :: entries =>
    if k == key then (key, value) :: entries
    else if key.lt k then (key, value) :: (k, v) :: entries
    else (k, v) :: put key value entries

/-- Remove a key with its value. -/
def remove (key : Bytes) (entries : Entries α) : Entries α :=
  entries.filter fun entry ↦ entry.1 != key

/-- The keys, in the order of the entries. -/
def keys (entries : Entries α) : List Bytes :=
  entries.map (·.1)

/-- The keys are in order, and each of them occurs once. -/
def Ascending (entries : Entries α) : Prop :=
  entries.keys.Pairwise (· < ·)

instance (entries : Entries α) : Decidable entries.Ascending :=
  inferInstanceAs (Decidable (List.Pairwise _ _))

theorem ascending_cons :
    Ascending ((key, value) :: entries) ↔ (∀ k ∈ entries.keys, key < k) ∧ entries.Ascending :=
  List.pairwise_cons

theorem put_cons (k : Bytes) (v : α) (key : Bytes) (value : α) (entries : Entries α) :
    put k v ((key, value) :: entries)
      = if key = k then (k, v) :: entries
        else if k < key then (k, v) :: (key, value) :: entries
        else (key, value) :: put k v entries := by
  rw [put]
  simp only [beq_iff_eq, Bytes.lt_iff]

/-- Setting a value brings its entry in and no other. -/
theorem mem_of_mem_put {entry : Bytes × α} (h : entry ∈ put k v entries) :
    entry = (k, v) ∨ entry ∈ entries := by
  induction entries with
  | nil => exact .inl (List.mem_singleton.1 h)
  | cons first entries ih =>
    obtain ⟨key, value⟩ := first
    rw [put_cons] at h
    split at h
    case isTrue =>
      rcases List.mem_cons.1 h with rfl | h
      · exact .inl rfl
      · exact .inr (List.mem_cons_of_mem _ h)
    case isFalse =>
      split at h
      case isTrue => exact List.mem_cons.1 h
      case isFalse =>
        rcases List.mem_cons.1 h with rfl | h
        · exact .inr List.mem_cons_self
        · exact (ih h).imp_right (List.mem_cons_of_mem _)

theorem mem_keys_put {x : Bytes} (h : x ∈ (put k v entries).keys) : x = k ∨ x ∈ entries.keys := by
  obtain ⟨entry, hentry, rfl⟩ := List.mem_map.1 h
  rcases mem_of_mem_put hentry with rfl | hentry
  · exact .inl rfl
  · exact .inr (List.mem_map_of_mem hentry)

/-- Setting a value keeps the keys in order. -/
theorem Ascending.put (h : entries.Ascending) (k : Bytes) (v : α) :
    (entries.put k v).Ascending := by
  induction entries with
  | nil => exact List.pairwise_singleton _ _
  | cons entry entries ih =>
    obtain ⟨key, value⟩ := entry
    obtain ⟨hkey, hentries⟩ := ascending_cons.1 h
    rw [put_cons]
    split
    case isTrue heq => exact ascending_cons.2 ⟨heq ▸ hkey, hentries⟩
    case isFalse hne =>
      split
      case isTrue hlt =>
        refine ascending_cons.2 ⟨fun x hx ↦ ?_, h⟩
        rcases List.mem_cons.1 hx with rfl | hx
        · exact hlt
        · exact List.lt_trans hlt (hkey x hx)
      case isFalse hge =>
        refine ascending_cons.2 ⟨fun x hx ↦ ?_, ih hentries⟩
        rcases mem_keys_put hx with rfl | hx
        · exact Decidable.byContradiction fun hle ↦ hne (List.le_antisymm hge hle)
        · exact hkey x hx

/-- Removing a key keeps the others in order. -/
theorem Ascending.remove (h : entries.Ascending) (key : Bytes) :
    (entries.remove key).Ascending :=
  h.sublist (List.filter_sublist.map _)

/-- Other values leave the keys in order. -/
theorem ascending_map {β : Type} (f : α → β) :
    Ascending (entries.map fun (key, value) ↦ (key, f value)) ↔ entries.Ascending := by
  rw [Ascending, keys, List.map_map]
  exact Iff.rfl

end Entries

/-- A finite map: entries in the order of their keys, each key occurring once. -/
@[ext] structure KeyedList (α : Type) where
  entries : Entries α
  ascending : entries.Ascending

namespace KeyedList

variable {α : Type}

/-- The map without entries. -/
def empty : KeyedList α := ⟨[], .nil⟩

instance : Inhabited (KeyedList α) := ⟨empty⟩

/-- The value of a key. -/
def get? (key : Bytes) (map : KeyedList α) : Option α :=
  map.entries.get? key

/-- Set the value of a key. -/
def put (key : Bytes) (value : α) (map : KeyedList α) : KeyedList α :=
  ⟨map.entries.put key value, map.ascending.put key value⟩

/-- The map of some entries, of which later ones replace earlier ones of the same key. -/
def ofList (entries : Entries α) : KeyedList α :=
  entries.foldl (fun map entry ↦ map.put entry.1 entry.2) empty

/-- The keys in their order. -/
def keys (map : KeyedList α) : List Bytes :=
  map.entries.keys

/-- What a function makes of the entries, in the order of their keys. -/
def map {β : Type} (f : Bytes × α → β) (map : KeyedList α) : List β :=
  map.entries.map f

end KeyedList

end ColonGap
