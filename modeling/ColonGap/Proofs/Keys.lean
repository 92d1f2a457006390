import ColonGap.KeyedList
import Mathlib.Data.List.Basic
import Mathlib.Tactic.Common

/-!
# What a list with keys holds

Setting the value of a key changes what this key is looked up to, and nothing else
(`KeyedList.get?_put`). Entries are kept in the order of their keys, so setting the values of two
keys gives the same list whichever comes first (`KeyedList.put_comm`), and an entry is in the list
exactly if its key is looked up to its value (`KeyedList.get?_eq_some_iff`).

Each of these is a fact about entries first, since the entries of a directory in a tree have no
proof of their order beside them. Only the last one needs the order.
-/

namespace ColonGap

namespace Entries

variable {α : Type} {k k' key : Bytes} {value : α} {entries : Entries α}

@[simp] theorem get?_nil (k : Bytes) : get? k ([] : Entries α) = none := rfl

/-- A key is looked up to the first value that stands with it. -/
theorem get?_cons (k key : Bytes) (value : α) (entries : Entries α) :
    get? k ((key, value) :: entries) = if key = k then some value else get? k entries := by
  unfold get?
  rw [List.find?_cons]
  by_cases h : key = k
  · simp [h]
  · have hkey : (key == k) = false := beq_eq_false_iff_ne.2 h
    simp [hkey, h]

/-- Setting the value of a key changes the value of this key and of no other. -/
theorem get?_put (k key : Bytes) (value : α) (entries : Entries α) :
    get? k (put key value entries) = if key = k then some value else get? k entries := by
  induction entries with
  | nil => rw [put, get?_cons]
  | cons entry entries ih =>
    obtain ⟨key', value'⟩ := entry
    rw [put]
    split
    case isTrue h =>
      obtain rfl := beq_iff_eq.1 h
      rw [get?_cons, get?_cons]
      split <;> rfl
    case isFalse h =>
      split
      · rw [get?_cons]
      · rw [get?_cons, ih, get?_cons]
        by_cases hk : key' = k
        · have hne : key ≠ k := by
            rintro rfl
            exact h (beq_iff_eq.2 hk)
          simp [hk, hne]
        · simp [hk]

/-- The value that is set last stays. -/
theorem put_put (k : Bytes) (v v' : α) (entries : Entries α) :
    put k v (put k v' entries) = put k v entries := by
  induction entries with
  | nil => simp [put]
  | cons entry entries ih =>
    obtain ⟨key, value⟩ := entry
    rw [put_cons, put_cons]
    split
    · simp [put_cons]
    · split
      · simp [put_cons]
      · simp [put_cons, *]

/-- The values of two keys can be set in either order. -/
theorem put_comm (hne : k ≠ k') (v v' : α) (entries : Entries α) :
    put k v (put k' v' entries) = put k' v' (put k v entries) := by
  wlog hlt : k < k' generalizing k k' v v'
  · have hlt' : k' < k := by
      by_contra hge
      exact hne (List.le_antisymm hge hlt)
    exact (this hne.symm v' v hlt').symm
  have hge : ¬ k' < k := List.lt_asymm hlt
  induction entries with
  | nil => simp [put, put_cons, hne, hne.symm, hlt, hge]
  | cons entry entries ih =>
    obtain ⟨key, value⟩ := entry
    -- What is behind `k'` is behind `k` too.
    have hbehind : k' < key → k < key := List.lt_trans hlt
    by_cases hkey : key = k
    · subst hkey
      simp [put_cons, hne, hge]
    · by_cases hkey' : key = k'
      · subst hkey'
        simp [put_cons, hne, hne.symm, hlt, List.le_of_lt hlt]
      · by_cases hafter : k' < key
        · simp [put_cons, hkey, hkey', hafter, hbehind hafter, hne, hne.symm, hlt, hge]
        · by_cases hbetween : k < key <;>
            simp [put_cons, hkey, hkey', hafter, hbetween, hne, hge, ih]

/-- What a key is looked up to is what stands in the list. -/
theorem Ascending.get?_eq_some_iff (h : entries.Ascending) :
    entries.get? key = some value ↔ (key, value) ∈ entries := by
  induction entries with
  | nil => simp
  | cons entry entries ih =>
    obtain ⟨first, v⟩ := entry
    obtain ⟨hfirst, hentries⟩ := ascending_cons.1 h
    rw [get?_cons, List.mem_cons, Prod.mk.injEq]
    split
    case isTrue heq =>
      have hnot : (key, value) ∉ entries := fun hmem ↦
        List.lt_irrefl key (heq ▸ hfirst key (List.mem_map_of_mem hmem))
      simp [heq, hnot, eq_comm]
    case isFalse hne => rw [ih hentries, or_iff_right fun heq ↦ hne heq.1.symm]

end Entries

namespace KeyedList

variable {α : Type} {k k' key : Bytes} {value : α} {map : KeyedList α}

@[simp] theorem get?_empty (k : Bytes) : (empty : KeyedList α).get? k = none := rfl

/-- Setting the value of a key changes the value of this key and of no other. -/
theorem get?_put (k key : Bytes) (value : α) (map : KeyedList α) :
    (map.put key value).get? k = if key = k then some value else map.get? k :=
  Entries.get?_put k key value map.entries

/-- The value that is set last stays. -/
theorem put_put (k : Bytes) (v v' : α) (map : KeyedList α) :
    (map.put k v').put k v = map.put k v :=
  KeyedList.ext (Entries.put_put k v v' map.entries)

/-- The values of two keys can be set in either order. -/
theorem put_comm (hne : k ≠ k') (v v' : α) (map : KeyedList α) :
    (map.put k' v').put k v = (map.put k v).put k' v' :=
  KeyedList.ext (Entries.put_comm hne v v' map.entries)

/-- What a key is looked up to is what stands in the list. -/
theorem get?_eq_some_iff : map.get? key = some value ↔ (key, value) ∈ map.entries :=
  map.ascending.get?_eq_some_iff

end KeyedList

end ColonGap
