import ColonGap.Fix
import ColonGap.Proofs.Ordering
import Mathlib.Algebra.BigOperators.Group.List.Basic
import Mathlib.Algebra.Order.Ring.Int

/-!
# Texts with parts replaced

Applying fixes comes down to `patch`: the text between the replacements is copied and the
replacements are put in.

## Offsets

`shift` says where an offset goes. It adds up what the replacements that start before the offset
insert and remove, so an offset at which a replacement starts stays before the new text, and one
behind it moves along. The two facts everything else rests on:

* `patch_append`: a list of replacements may be cut at an offset that lies inside none of them,
  and the text in front of the cut is then patched on its own;
* `length_patch_take`: the patched text in front of such an offset is as long as `shift` says.
-/

namespace ColonGap

namespace Bytes

/-! ### Slices -/

variable {s : Bytes} {i j k : Nat}

theorem length_slice (hj : j ≤ s.length) : (s.slice i j).length = j - i := by
  simp [slice]
  omega

/-- Slices that follow each other are one slice. -/
theorem slice_append_slice (hij : i ≤ j) (hjk : j ≤ k) :
    s.slice i j ++ s.slice j k = s.slice i k := by
  obtain ⟨m, rfl⟩ := Nat.exists_eq_add_of_le hij
  obtain ⟨n, rfl⟩ := Nat.exists_eq_add_of_le hjk
  have h := List.take_add (l := s.drop i) (i := m) (j := n)
  simp only [slice, List.drop_drop, Nat.add_sub_cancel_left] at h ⊢
  rw [show i + m + n - i = m + n by omega, h]

theorem slice_append_drop (hij : i ≤ j) : s.slice i j ++ s.drop j = s.drop i := by
  obtain ⟨m, rfl⟩ := Nat.exists_eq_add_of_le hij
  rw [slice, Nat.add_sub_cancel_left, ← List.drop_drop, List.take_append_drop]

theorem slice_take (hjk : j ≤ k) : slice (s.take k) i j = s.slice i j := by
  rw [slice, slice, List.drop_take, List.take_take, Nat.min_eq_left (by omega)]

theorem drop_take_eq_slice : (List.take j s).drop i = s.slice i j := by
  rw [slice, List.drop_take]

/-- A slice of a slice. -/
theorem drop_slice : (s.slice i j).drop k = s.slice (i + k) j := by
  rw [slice, slice, List.drop_take, List.drop_drop]
  congr 1
  omega

end Bytes

namespace Fix

/-! ### The order of replacements -/

theorem precedes_total (r s : Replacement) : precedes r s = true ∨ precedes s r = true := by
  simp only [precedes, beq_iff_eq]
  split_ifs <;> simp only [decide_eq_true_eq] <;> omega

/-- The order of replacements is transitive. -/
theorem precedes_trans (r s t : Replacement) (hrs : precedes r s = true)
    (hst : precedes s t = true) : precedes r t = true := by
  simp only [precedes, beq_iff_eq] at hrs hst ⊢
  split_ifs at hrs hst ⊢ <;> simp only [decide_eq_true_eq] at hrs hst ⊢ <;> omega

/-- A replacement that precedes another starts no later. -/
theorem start_le_of_precedes {r s : Replacement} (h : precedes r s = true) :
    r.start ≤ s.start := by
  simp only [precedes, beq_iff_eq] at h
  split_ifs at h <;> simp only [decide_eq_true_eq] at h <;> omega

/-- `r` ends where `s` starts or before, and the two start at different offsets. -/
def Before (r s : Replacement) : Prop :=
  r.start < s.start ∧ r.stop ≤ s.start

/-! ### Patching -/

/-- The source from offset `done` on, with the replacements put in. -/
def patch (source : Bytes) (done : Nat) : List Replacement → Bytes
  | [] => source.drop done
  | r :: rs => source.slice done r.start.toNat ++ r.text ++ patch source r.stop.toNat rs

/-- The replacements lie one behind the other between two offsets. -/
def Fits (done limit : Nat) : List Replacement → Prop
  | [] => done ≤ limit
  | r :: rs => done ≤ r.start ∧ r.start ≤ r.stop ∧ Fits r.stop.toNat limit rs

/-- Replacements that fit leave the limit behind their start. -/
theorem Fits.le {done limit : Nat} {rs : List Replacement} (h : Fits done limit rs) :
    done ≤ limit := by
  induction rs generalizing done with
  | nil => exact h
  | cons r rs ih =>
    obtain ⟨hstart, hstop, hrest⟩ := h
    have hlimit := ih hrest
    omega

/-- Replacements that follow one another fit between two offsets if each of them does. -/
theorem fits_of_pairwise {done limit : Nat} {rs : List Replacement}
    (h : rs.Pairwise fun r s ↦ r.stop ≤ s.start) (hle : done ≤ limit)
    (hin : ∀ r ∈ rs, (done : Int) ≤ r.start ∧ r.start ≤ r.stop ∧ r.stop ≤ limit) :
    Fits done limit rs := by
  induction rs generalizing done with
  | nil => exact hle
  | cons r rs ih =>
    obtain ⟨hr, hrs⟩ := List.pairwise_cons.1 h
    obtain ⟨hstart, hstop, hlimit⟩ := hin r (by simp)
    refine ⟨hstart, hstop, ih hrs (by omega) fun s hs ↦ ?_⟩
    have hbefore := hr s hs
    obtain ⟨-, hs⟩ := hin s (by simp [hs])
    exact ⟨by omega, hs⟩

/-- Replacements that fit up to a cut fit together with those that fit behind it. -/
theorem fits_append {done cut limit : Nat} {before after : List Replacement}
    (hbefore : Fits done cut before) (hafter : Fits cut limit after) :
    Fits done limit (before ++ after) := by
  induction before generalizing done with
  | nil =>
    cases after with
    | nil => exact Nat.le_trans hbefore hafter
    | cons r rs =>
      obtain ⟨hstart, hrest⟩ := hafter
      have hdone : done ≤ cut := hbefore
      exact ⟨by omega, hrest⟩
  | cons r rs ih =>
    obtain ⟨hstart, hstop, hrs⟩ := hbefore
    exact ⟨hstart, hstop, ih hrs⟩

/-- **Cutting a patch.** The text in front of an offset that lies inside no replacement is patched
on its own. -/
theorem patch_append {source : Bytes} {done cut limit : Nat} {before after : List Replacement}
    (hbefore : Fits done cut before) (hafter : Fits cut limit after) :
    patch source done (before ++ after)
      = patch (source.take cut) done before ++ patch source cut after := by
  induction before generalizing done with
  | nil =>
    -- Only the text between `done` and the cut lies in front of it.
    rw [List.nil_append, patch, Bytes.drop_take_eq_slice]
    cases after with
    | nil => exact (Bytes.slice_append_drop hbefore).symm
    | cons r rs =>
      obtain ⟨hstart, -⟩ := hafter
      have hcut : cut ≤ r.start.toNat := by omega
      rw [patch, patch, ← Bytes.slice_append_slice hbefore hcut]
      simp only [List.append_assoc]
  | cons r rs ih =>
    obtain ⟨-, hstop, hrs⟩ := hbefore
    have hcut : r.start.toNat ≤ cut := by
      have := hrs.le
      omega
    rw [List.cons_append, patch, patch, ih hrs, Bytes.slice_take hcut]
    simp only [List.append_assoc]

/-! ### Offsets -/

/-- How much longer a text gets. -/
def gain (r : Replacement) : Int :=
  r.text.length - (r.stop - r.start)

/-- Where an offset goes when the replacements are put in. -/
def shift (rs : List Replacement) (x : Int) : Int :=
  x + ((rs.filter fun r ↦ r.start < x).map gain).sum

/-- A patched text is longer by what the replacements add. -/
theorem length_patch {source : Bytes} {done : Nat} {rs : List Replacement}
    (h : Fits done source.length rs) :
    ((patch source done rs).length : Int) = source.length - done + (rs.map gain).sum := by
  induction rs generalizing done with
  | nil =>
    have hle : done ≤ source.length := h
    simp [patch]
    omega
  | cons r rs ih =>
    obtain ⟨hstart, hstop, hrs⟩ := h
    have hle := hrs.le
    have hslice : (source.slice done r.start.toNat).length = r.start.toNat - done :=
      Bytes.length_slice (by omega)
    rw [patch, List.length_append, List.length_append, hslice]
    push_cast
    rw [ih hrs, List.map_cons, List.sum_cons, gain]
    omega

/-- An offset is shifted by what all replacements in front of it insert and remove. -/
theorem shift_append {before after : List Replacement} {x : Int}
    (hbefore : ∀ r ∈ before, r.start < x) (hafter : ∀ r ∈ after, x ≤ r.start) :
    shift (before ++ after) x = x + (before.map gain).sum := by
  have hkeep : before.filter (fun r ↦ r.start < x) = before :=
    List.filter_eq_self.2 fun r hr ↦ decide_eq_true (hbefore r hr)
  have hdrop : after.filter (fun r ↦ r.start < x) = [] :=
    List.filter_eq_nil_iff.2 fun r hr ↦ by simpa using hafter r hr
  rw [shift, List.filter_append, hkeep, hdrop, List.append_nil]

/-- The patched text in front of an offset ends where the offset goes to. -/
theorem length_patch_take {source : Bytes} {cut : Nat} {before : List Replacement}
    (hbefore : Fits 0 cut before) (hcut : cut ≤ source.length) :
    ((patch (source.take cut) 0 before).length : Int) = cut + (before.map gain).sum := by
  have hlength : (source.take cut).length = cut := by simp [hcut]
  have hpatch := @length_patch (source.take cut) 0 _ (by rwa [hlength])
  rw [hpatch, hlength]
  simp

/-- Replacements in order may be split at any offset. -/
theorem exists_split {rs : List Replacement} (h : rs.Pairwise Before) (x : Int) :
    ∃ before after, rs = before ++ after ∧ (∀ r ∈ before, r.start < x) ∧
      ∀ r ∈ after, x ≤ r.start := by
  induction rs with
  | nil => exact ⟨[], [], by simp⟩
  | cons r rs ih =>
    obtain ⟨hr, hrs⟩ := List.pairwise_cons.1 h
    by_cases hx : r.start < x
    · obtain ⟨before, after, rfl, hbefore, hafter⟩ := ih hrs
      exact ⟨r :: before, after, rfl, by simpa using ⟨hx, hbefore⟩, hafter⟩
    · refine ⟨[], r :: rs, rfl, by simp, fun s hs ↦ ?_⟩
      rcases List.mem_cons.1 hs with rfl | hs
      · omega
      · have hlt := (hr s hs).1
        omega

/-- **A range of the patched text.** Where the ends of a range go to, there is the text of the
range, patched with the replacements that start in it. -/
theorem slice_patch {source : Bytes} {i j : Nat} {before middle after : List Replacement}
    (hbefore : Fits 0 i before) (hmiddle : Fits i j middle)
    (hafter : Fits j source.length after) (hbefore' : ∀ r ∈ before, r.start < i)
    (hmiddle' : ∀ r ∈ middle, (i : Int) ≤ r.start ∧ r.start < j)
    (hafter' : ∀ r ∈ after, (j : Int) ≤ r.start) :
    let rs := before ++ (middle ++ after)
    ∃ i' j' : Nat, shift rs i = i' ∧ shift rs j = j' ∧ i' ≤ j' ∧
      j' ≤ (patch source 0 rs).length ∧
      (patch source 0 rs).slice i' j' = patch (source.take j) i middle := by
  intro rs
  have hij := hmiddle.le
  have hj := hafter.le
  have htake : (source.take j).length = j := by simp [hj]
  -- The patched text falls into three pieces.
  have hrest : Fits i source.length (middle ++ after) :=
    fits_append hmiddle hafter
  have hpatch : patch source 0 rs
      = patch (source.take i) 0 before ++ (patch (source.take j) i middle
        ++ patch source j after) := by
    rw [patch_append hbefore hrest, patch_append hmiddle hafter]
  have hfirst := length_patch_take hbefore (hij.trans hj)
  have hsecond := @length_patch (source.take j) _ _ (by rwa [htake])
  -- The first of them ends where `i` goes to, the second where `j` goes to.
  have hi : shift rs i = (patch (source.take i) 0 before).length := by
    rw [hfirst]
    refine shift_append hbefore' fun r hr ↦ ?_
    rcases List.mem_append.1 hr with hr | hr
    · exact (hmiddle' r hr).1
    · have := hafter' r hr
      omega
  have hj : shift rs j
      = ((patch (source.take i) 0 before).length + (patch (source.take j) i middle).length : Nat) := by
    have hstarts : ∀ r ∈ before ++ middle, r.start < j := fun r hr ↦ by
      rcases List.mem_append.1 hr with hr | hr
      · have := hbefore' r hr
        omega
      · exact (hmiddle' r hr).2
    rw [show rs = (before ++ middle) ++ after from (List.append_assoc _ _ _).symm,
      shift_append hstarts hafter', List.map_append, List.sum_append]
    push_cast
    rw [hfirst, hsecond, htake]
    omega
  refine ⟨_, _, hi, hj, Nat.le_add_right _ _, ?_, ?_⟩
  · rw [hpatch]
    simp only [List.length_append]
    omega
  · rw [hpatch, Bytes.slice, Nat.add_sub_cancel_left, List.drop_left, List.take_left]

end Fix

end ColonGap
