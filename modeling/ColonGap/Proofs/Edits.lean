import ColonGap.Diff.Edit
import Mathlib.Data.List.Basic
import Mathlib.Tactic.Common

/-!
# Edits turn the old lines into the new ones

A match joins a stretch of the old lines with an equal stretch of the new ones (`Match.Joins`). The
search for the longest match keeps this, and so do the extension of a match and the recursion into
what stands before and behind it. So the edits of two lists have the old lines as their old side and
the new lines as their new side (`flatMap_old_edits`, `flatMap_new_edits`), whatever lines are
popular.

## Equal lists

Equal lists have a single edit, which keeps everything (`edits_self`). This needs more than that
matches are matches, because popular lines start none: the longest run that is found may be a part
of the list, and all depends on its being joined with *itself*, since only then the extension covers
the rest. The reason is that the runs of a list with itself are symmetric: a run that ends at lines
`i` and `j` has been seen in row `j` if `j < i`, and is no longer than the one that ends at `i` and
`i`. So a new best run is always found on the diagonal (`Leads.step`).
-/

namespace ColonGap

namespace Diff

variable {ignored old new : List Bytes}

/-! ### Runs -/

/-- The length of the run that two lists of lines, both read backwards, start with: lines that are
equal and not ignored. -/
def runLength (ignored : List Bytes) : List Bytes → List Bytes → Nat
  | a :: s, b :: t => if a == b && !ignored.contains a then runLength ignored s t + 1 else 0
  | _, _ => 0

@[simp] theorem runLength_nil_left (t : List Bytes) : runLength ignored [] t = 0 := by
  unfold runLength
  rfl

@[simp] theorem runLength_nil_right (s : List Bytes) : runLength ignored s [] = 0 := by
  cases s <;> rfl

theorem runLength_cons (a b : Bytes) (s t : List Bytes) :
    runLength ignored (a :: s) (b :: t)
      = if a == b && !ignored.contains a then runLength ignored s t + 1 else 0 :=
  rfl

/-- A run is as long whichever list comes first. -/
theorem runLength_comm (s t : List Bytes) : runLength ignored s t = runLength ignored t s := by
  induction s generalizing t with
  | nil => simp
  | cons a s ih =>
    cases t with
    | nil => simp
    | cons b t =>
      rw [runLength_cons, runLength_cons, ih]
      by_cases h : a = b
      · rw [h]
      · have hab : (a == b) = false := beq_eq_false_iff_ne.2 h
        have hba : (b == a) = false := beq_eq_false_iff_ne.2 (Ne.symm h)
        simp [hab, hba]

/-- No run is longer than the one of a list with itself. -/
theorem runLength_le_self (s t : List Bytes) :
    runLength ignored s t ≤ runLength ignored s s := by
  induction s generalizing t with
  | nil => simp
  | cons a s ih =>
    cases t with
    | nil => simp
    | cons b t =>
      have hst := ih t
      rw [runLength_cons, runLength_cons, beq_self_eq_true, Bool.true_and]
      cases a == b <;> cases ignored.contains a <;> simp [hst]

/-- The lines of a run are the same on both sides. -/
theorem exists_run (s t : List Bytes) :
    ∃ run s' t', s = run ++ s' ∧ t = run ++ t' ∧ run.length = runLength ignored s t := by
  induction s generalizing t with
  | nil => exact ⟨[], [], t, rfl, rfl, by simp⟩
  | cons a s ih =>
    cases t with
    | nil => exact ⟨[], a :: s, [], rfl, rfl, rfl⟩
    | cons b t =>
      rw [runLength_cons]
      split
      case isTrue h =>
        obtain ⟨rfl, -⟩ : a = b ∧ _ := by simpa using h
        obtain ⟨run, s', t', hs, ht, hlength⟩ := ih t
        exact ⟨a :: run, s', t', by rw [hs]; rfl, by rw [ht]; rfl, by simp [hlength]⟩
      case isFalse => exact ⟨[], a :: s, b :: t, rfl, rfl, rfl⟩

/-! ### Rows -/

/-- The lengths of the runs that end with the last of the old lines in `before` and with each of the
lines in `new`, which stand behind those in `passed`. Both are read backwards. -/
def row (ignored before : List Bytes) : (passed new : List Bytes) → List Nat
  | _, [] => []
  | passed, line :: new =>
    runLength ignored before (line :: passed) :: row ignored before (line :: passed) new

@[simp] theorem length_row (before passed new : List Bytes) :
    (row ignored before passed new).length = new.length := by
  induction new generalizing passed with
  | nil => rfl
  | cons line new ih => simp [row, ih]

/-- A row goes on behind a cut of the new lines. -/
theorem row_append (before passed new new' : List Bytes) :
    row ignored before passed (new ++ new')
      = row ignored before passed new ++ row ignored before (new.reverse ++ passed) new' := by
  induction new generalizing passed with
  | nil => rfl
  | cons line new ih => simp [row, ih]

/-- Every entry of a row is the length of a run that ends in it. -/
theorem mem_row {before passed new : List Bytes} {n : Nat}
    (h : n ∈ row ignored before passed new) :
    ∃ t, t.reverse <+: passed.reverse ++ new ∧ t.length ≤ passed.length + new.length ∧
      n = runLength ignored before t := by
  induction new generalizing passed with
  | nil => cases h
  | cons line new ih =>
    rcases List.mem_cons.1 h with rfl | h
    · exact ⟨line :: passed, ⟨new, by simp⟩, by simp, rfl⟩
    · obtain ⟨t, hprefix, hlength, hn⟩ := ih h
      refine ⟨t, by simpa using hprefix, ?_, hn⟩
      simp only [List.length_cons] at hlength ⊢
      omega

/-- Where no run ends, a row is all zeros. -/
theorem row_eq_zeros {before : List Bytes} (h : ∀ t, runLength ignored before t = 0)
    (passed new : List Bytes) : row ignored before passed new = new.map fun _ ↦ 0 := by
  induction new generalizing passed with
  | nil => rfl
  | cons line new ih => simp [row, h, ih]

theorem zeros_eq_row (ignored new : List Bytes) :
    (new.map fun _ ↦ 0) = row ignored [] [] new :=
  (row_eq_zeros runLength_nil_left [] new).symm

/-- A row is got from the row before it. -/
theorem nextLengths_row (line : Bytes) (before new : List Bytes) :
    nextLengths ignored new line (row ignored before [] new)
      = row ignored (line :: before) [] new := by
  rw [nextLengths]
  split
  case isTrue h =>
    have hline : line ∈ ignored := by simpa using h
    refine (row_eq_zeros (fun t ↦ ?_) [] new).symm
    cases t with
    | nil => rfl
    | cons b t => simp [runLength_cons, hline]
  case isFalse h =>
    have hfree : line ∉ ignored := by simpa using h
    have hstep : ∀ passed, List.zipWith (fun other n ↦ if other == line then n + 1 else 0) new
        (runLength ignored before passed :: row ignored before passed new)
          = row ignored (line :: before) passed new := by
      induction new with
      | nil => exact fun _ ↦ rfl
      | cons other new ih =>
        intro passed
        rw [row, List.zipWith_cons_cons, ih, row, runLength_cons]
        by_cases hother : other = line
        · simp [hother, hfree]
        · have hline : ¬ line = other := Ne.symm hother
          simp [hother, hline]
    simpa using hstep []

/-! ### Matches -/

/-- The match joins a stretch of the old lines with an equal stretch of the new ones. -/
def Match.Joins (m : Match) (old new : List Bytes) : Prop :=
  ∃ before before' kept behind behind', old = before ++ (kept ++ behind) ∧
    new = before' ++ (kept ++ behind') ∧ m = ⟨before.length, before'.length, kept.length⟩

theorem joins_nothing (old new : List Bytes) : Match.Joins ⟨0, 0, 0⟩ old new :=
  ⟨[], [], [], old, new, rfl, rfl, rfl⟩

/-- A run is a match. -/
theorem joins_run (before behind passed behind' : List Bytes) :
    Match.Joins ⟨before.length - runLength ignored before passed,
      passed.length - runLength ignored before passed, runLength ignored before passed⟩
      (before.reverse ++ behind) (passed.reverse ++ behind') := by
  obtain ⟨run, s, t, rfl, rfl, hlength⟩ := @exists_run ignored before passed
  refine ⟨s.reverse, t.reverse, run.reverse, behind, behind', by simp, by simp, ?_⟩
  simp only [← hlength, List.length_append, List.length_reverse, Nat.add_sub_cancel_left]

/-- Looking for a better match in one row keeps a match that joins equal stretches. -/
theorem joins_bestInRow {best : Match} {before passed behind : List Bytes}
    (h : best.Joins (before.reverse ++ behind) (passed.reverse ++ new)) (i : Nat)
    (hi : i + 1 = before.length) :
    (bestInRow i passed.length (row ignored before passed new) best).Joins
      (before.reverse ++ behind) (passed.reverse ++ new) := by
  induction new generalizing passed best with
  | nil => exact h
  | cons line new ih =>
    have hnew : passed.reverse ++ line :: new = (line :: passed).reverse ++ new := by simp
    rw [hnew] at h ⊢
    refine @ih _ (line :: passed) ?_
    split
    · rw [hi]
      exact joins_run before behind (line :: passed) new
    · exact h

/-- Looking for a better match in all rows keeps a match that joins equal stretches. -/
theorem joins_bestFrom {best : Match} {before : List Bytes}
    (h : best.Joins (before.reverse ++ old) new) :
    (bestFrom ignored new before.length old (row ignored before [] new) best).Joins
      (before.reverse ++ old) new := by
  induction old generalizing before best with
  | nil => exact h
  | cons line old ih =>
    have hold : before.reverse ++ line :: old = (line :: before).reverse ++ old := by simp
    rw [hold] at h ⊢
    rw [bestFrom, nextLengths_row]
    exact @ih _ (line :: before) (@joins_bestInRow ignored new best (line :: before) [] old h _ rfl)

/-- Two lists start with a common part of the length that is measured. -/
theorem exists_common (s t : List Bytes) :
    ∃ shared s' t', s = shared ++ s' ∧ t = shared ++ t' ∧ shared.length = commonLength s t := by
  induction s generalizing t with
  | nil => exact ⟨[], [], t, rfl, rfl, by unfold commonLength; rfl⟩
  | cons a s ih =>
    cases t with
    | nil => exact ⟨[], a :: s, [], rfl, rfl, rfl⟩
    | cons b t =>
      rw [commonLength]
      split
      case isTrue h =>
        obtain rfl := beq_iff_eq.1 h
        obtain ⟨shared, s', t', hs, ht, hlength⟩ := ih t
        exact ⟨a :: shared, s', t', by rw [hs]; rfl, by rw [ht]; rfl, by simp [hlength]⟩
      case isFalse => exact ⟨[], a :: s, b :: t, rfl, rfl, rfl⟩

/-- A match that is extended still joins equal stretches. -/
theorem joins_extend {m : Match} (h : m.Joins old new) : (extend old new m).Joins old new := by
  obtain ⟨before, before', kept, behind, behind', rfl, rfl, rfl⟩ := h
  obtain ⟨x, s, s', hs, hs', hx⟩ := exists_common before.reverse before'.reverse
  obtain ⟨y, t, t', rfl, rfl, hy⟩ := exists_common behind behind'
  obtain rfl : before = s.reverse ++ x.reverse := by simpa using congrArg List.reverse hs
  obtain rfl : before' = s'.reverse ++ x.reverse := by simpa using congrArg List.reverse hs'
  refine ⟨s.reverse, s'.reverse, x.reverse ++ (kept ++ y), t, t', by simp, by simp, ?_⟩
  simp only [extend, List.take_left', List.drop_left', ← List.drop_drop, ← hx, ← hy,
    List.length_append, List.length_reverse]
  simp [Nat.add_assoc]

/-- The longest match is a match. -/
theorem joins_longestMatch (ignored old new : List Bytes) :
    (longestMatch ignored old new).Joins old new := by
  rw [longestMatch, zeros_eq_row ignored]
  exact joins_extend (@joins_bestFrom ignored old new _ [] (joins_nothing _ _))

/-! ### Both sides of the edits -/

/-- The old sides of the edits of a part are the old lines of the part. -/
theorem flatMap_old_editsWithin (ignored : List Bytes) (fuel : Nat) (old new : List Bytes) :
    (editsWithin ignored fuel old new).flatMap Edit.old = old := by
  induction fuel generalizing old new with
  | zero => simp [editsWithin, Edit.old]
  | succ fuel ih =>
    rw [editsWithin]
    split
    · simp [Edit.old]
    · simp [ih, Edit.old, ← List.drop_drop]

/-- The new sides of the edits of a part are the new lines of the part. -/
theorem flatMap_new_editsWithin (ignored : List Bytes) (fuel : Nat) (old new : List Bytes) :
    (editsWithin ignored fuel old new).flatMap Edit.new = new := by
  induction fuel generalizing old new with
  | zero => simp [editsWithin, Edit.new]
  | succ fuel ih =>
    obtain ⟨before, before', kept, behind, behind', hold, hnew, hm⟩ :=
      joins_longestMatch ignored old new
    rw [editsWithin, hm]
    split
    · simp [Edit.new]
    · -- What is kept are old lines, and the match says that they are the new ones as well.
      simp only [List.flatMap_append, List.flatMap_cons, ih, Edit.new]
      subst hold hnew
      simp [← List.drop_drop]

/-- Simplifying keeps a side, if a change of nothing has nothing on it. -/
theorem flatMap_simplify {side : Edit → List Bytes} (hkeep : ∀ lines, side (.keep lines) = lines)
    (hnothing : side (.change [] []) = []) (edits : List Edit) :
    (simplify edits).flatMap side = edits.flatMap side := by
  fun_induction simplify edits with
  | case1 => rfl
  | case2 edits ih => simpa [hnothing] using ih
  | case3 removed added edits _ ih => simp [ih]
  | case4 lines edits others rest heq ih =>
    rw [heq] at ih
    simp only [List.flatMap_cons, ← ih, hkeep, List.append_assoc]
  | case5 lines edits _ ih => simp [ih]

/-- **The old side.** The edits cover the old lines. -/
theorem flatMap_old_edits (old new : List Bytes) : (edits old new).flatMap Edit.old = old := by
  rw [edits, flatMap_simplify (fun _ ↦ rfl) rfl, flatMap_old_editsWithin]

/-- **The new side.** The edits cover the new lines. -/
theorem flatMap_new_edits (old new : List Bytes) : (edits old new).flatMap Edit.new = new := by
  rw [edits, flatMap_simplify (fun _ ↦ rfl) rfl, flatMap_new_editsWithin]

/-! ### Equal lists -/

/-- A row is searched in two parts. -/
theorem bestInRow_append (i j : Nat) (lengths lengths' : List Nat) (best : Match) :
    bestInRow i j (lengths ++ lengths') best
      = bestInRow i (j + lengths.length) lengths' (bestInRow i j lengths best) := by
  induction lengths generalizing j best with
  | nil => rfl
  | cons n lengths ih =>
    rw [List.cons_append, bestInRow, bestInRow, ih, List.length_cons, Nat.add_right_comm,
      Nat.add_assoc]

/-- A row without longer runs gives no better match. -/
theorem bestInRow_of_le {lengths : List Nat} {best : Match} (h : ∀ n ∈ lengths, n ≤ best.size)
    (i j : Nat) : bestInRow i j lengths best = best := by
  induction lengths generalizing j with
  | nil => rfl
  | cons n lengths ih =>
    obtain ⟨hn, hlengths⟩ := List.forall_mem_cons.1 h
    rw [bestInRow, if_neg (Nat.not_lt.2 hn), ih hlengths]

/-- The best match of a list with itself after `rows` rows: it joins a stretch with itself, and no
run in these rows is longer. -/
structure Leads (ignored lines : List Bytes) (rows : Nat) (best : Match) : Prop where
  diagonal : best.old = best.new
  longest : ∀ s t : List Bytes, s.reverse <+: lines → t.reverse <+: lines → s.length ≤ rows →
    runLength ignored s t ≤ best.size

/-- One more row. -/
theorem Leads.step {before behind : List Bytes} {line : Bytes} {best : Match}
    (h : Leads ignored (before.reverse ++ line :: behind) before.length best) :
    Leads ignored (before.reverse ++ line :: behind) (before.length + 1)
      (bestInRow before.length 0
        (row ignored (line :: before) [] (before.reverse ++ line :: behind)) best) := by
  set all := before.reverse ++ line :: behind with hall
  set self := runLength ignored (line :: before) (line :: before) with hself
  have hprefix : (line :: before).reverse <+: all := ⟨behind, by simp [hall]⟩
  have hrow : row ignored (line :: before) [] all
      = row ignored (line :: before) [] before.reverse
        ++ self :: row ignored (line :: before) (line :: before) behind := by
    rw [hall, row_append]
    simp [row, hself]
  -- Left of the diagonal there is nothing that an earlier row has not seen.
  have hleft : ∀ n ∈ row ignored (line :: before) [] before.reverse, n ≤ best.size := by
    intro n hn
    obtain ⟨t, ht, hlength, rfl⟩ := mem_row hn
    rw [runLength_comm]
    refine h.longest t _ (ht.trans ⟨line :: behind, by simp [hall]⟩) hprefix ?_
    simpa using hlength
  -- Right of it there is nothing longer than on it.
  have hright : ∀ n ∈ row ignored (line :: before) (line :: before) behind, n ≤ self := by
    intro n hn
    obtain ⟨t, -, -, rfl⟩ := mem_row hn
    exact runLength_le_self _ _
  have hlongest : ∀ m : Match, best.size ≤ m.size → self ≤ m.size → ∀ s t : List Bytes,
      s.reverse <+: all → t.reverse <+: all → s.length ≤ before.length + 1 →
      runLength ignored s t ≤ m.size := by
    intro m hbest hm s t hs ht hlength
    rcases Nat.lt_or_eq_of_le hlength with hlt | heq
    · exact Nat.le_trans (h.longest s t hs ht (Nat.le_of_lt_succ hlt)) hbest
    · have hline : s.reverse = (line :: before).reverse :=
        (List.prefix_of_prefix_length_le hs hprefix (by simp [heq])).eq_of_length (by simp [heq])
      rw [List.reverse_injective hline]
      exact Nat.le_trans (runLength_le_self _ _) hm
  rw [hrow, bestInRow_append, bestInRow_of_le hleft, bestInRow]
  split
  case isTrue hlt =>
    rw [bestInRow_of_le hright]
    exact ⟨by simp, hlongest _ (Nat.le_of_lt hlt) (Nat.le_refl _)⟩
  case isFalse hge =>
    have hself : self ≤ best.size := Nat.le_of_not_lt hge
    rw [bestInRow_of_le fun n hn ↦ Nat.le_trans (hright n hn) hself]
    exact ⟨h.diagonal, hlongest _ (Nat.le_refl _) hself⟩

/-- All rows. -/
theorem Leads.run {before behind : List Bytes} {best : Match}
    (h : Leads ignored (before.reverse ++ behind) before.length best) :
    (bestFrom ignored (before.reverse ++ behind) before.length behind
      (row ignored before [] (before.reverse ++ behind)) best).old
      = (bestFrom ignored (before.reverse ++ behind) before.length behind
        (row ignored before [] (before.reverse ++ behind)) best).new := by
  induction behind generalizing before best with
  | nil => exact h.diagonal
  | cons line behind ih =>
    have hstep := h.step
    have hall : before.reverse ++ line :: behind = (line :: before).reverse ++ behind := by simp
    rw [bestFrom, nextLengths_row]
    rw [hall] at hstep ⊢
    exact @ih (line :: before) _ hstep

/-- A list has all of itself in common with itself. -/
theorem commonLength_self (s : List Bytes) : commonLength s s = s.length := by
  induction s with
  | nil => rfl
  | cons a s ih => simp [commonLength, ih]

/-- The longest match of a list with itself is the whole list. -/
theorem longestMatch_self (ignored lines : List Bytes) :
    longestMatch ignored lines lines = ⟨0, 0, lines.length⟩ := by
  have hleads : Leads ignored ([].reverse ++ lines) ([] : List Bytes).length ⟨0, 0, 0⟩ := by
    refine ⟨rfl, fun s t _ _ hlength ↦ ?_⟩
    have hs : s = [] := List.eq_nil_of_length_eq_zero (Nat.le_zero.1 hlength)
    simp [hs, runLength_nil_left]
  have hdiagonal := hleads.run
  obtain ⟨before, before', kept, behind, behind', hold, hnew, hm⟩ :=
    @joins_bestFrom ignored lines lines _ [] (joins_nothing _ _)
  rw [longestMatch, zeros_eq_row ignored]
  simp only [List.reverse_nil, List.nil_append, List.length_nil] at hdiagonal hold hm
  rw [hm] at hdiagonal ⊢
  dsimp only at hdiagonal
  have hlength : lines.length = before.length + (kept.length + behind.length) := by simp [hold]
  simp only [extend, ← hdiagonal, commonLength_self, List.length_reverse, List.length_take,
    List.length_drop, Match.mk.injEq]
  omega

/-- **Equal lists.** Nothing changes: all lines are kept, by one edit if there are any. -/
theorem edits_self (lines : List Bytes) :
    edits lines lines = if lines.isEmpty then [] else [.keep lines] := by
  have hnothing : ∀ ignored fuel, editsWithin ignored fuel [] [] = [.change [] []] := by
    intro ignored fuel
    cases fuel with
    | zero => rfl
    | succ fuel => simp [editsWithin, longestMatch_self]
  cases lines with
  | nil => rfl
  | cons line lines =>
    simp [edits, editsWithin, longestMatch_self, hnothing, simplify]

end Diff

end ColonGap
