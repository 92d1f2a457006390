import ColonGap.Diff.Hunk
import ColonGap.Proofs.Edits

/-!
# Hunks turn the old lines into the new ones

A hunk stands at a place: behind some number of old lines and some number of new ones. `Turns` says
that a list of hunks turns old lines into new ones, where the lines between hunks are the same on
both sides, and where each hunk stands behind as many lines as are before it. The hunks of any list
of edits do this for the two sides of the edits (`turns_hunks`): how kept lines are cut at the ends,
where they end a hunk, and that hunks without a change are dropped makes no difference to it, since
all of this only moves equal lines out of hunks.
-/

namespace ColonGap

namespace Diff

variable {o n : Nat} {old new : List Bytes} {h : Hunk} {hs : List Hunk} {e : Edit}
  {edits : List Edit}

namespace Hunk

/-- The old lines of a hunk. -/
def oldLines (h : Hunk) : List Bytes :=
  h.edits.flatMap Edit.old

/-- The new lines of a hunk. -/
def newLines (h : Hunk) : List Bytes :=
  h.edits.flatMap Edit.new

/-- A hunk without a change has the same lines on both sides. -/
theorem oldLines_eq_newLines (hnone : h.edits.any Edit.isChange = false) :
    h.oldLines = h.newLines := by
  rw [oldLines, newLines]
  refine List.flatMap_congr fun e he ↦ ?_
  cases e with
  | keep lines => rfl
  | change removed added => exact absurd (List.any_eq_false.1 hnone _ he) (by simp [Edit.isChange])

end Hunk

/-- The hunks turn the old lines into the new ones, of which `o` and `n` have gone before. -/
inductive Turns : (o n : Nat) → (old : List Bytes) → List Hunk → (new : List Bytes) → Prop
  | done {o n : Nat} (lines : List Bytes) : Turns o n lines [] lines
  | hunk {o n : Nat} {h : Hunk} {hs : List Hunk} {old new : List Bytes} (kept : List Bytes)
      (hold : h.old = o + kept.length) (hnew : h.new = n + kept.length)
      (rest : Turns (h.old + h.oldLines.length) (h.new + h.newLines.length) old hs new) :
      Turns o n (kept ++ (h.oldLines ++ old)) (h :: hs) (kept ++ (h.newLines ++ new))

namespace Turns

variable {o' n' : Nat}

/-- Lines in front that are the same on both sides. -/
theorem skip (kept : List Bytes) (ho : o' = o + kept.length) (hn : n' = n + kept.length)
    (ht : Turns o' n' old hs new) : Turns o n (kept ++ old) hs (kept ++ new) := by
  cases ht with
  | done lines => exact .done _
  | hunk more hold hnew rest =>
    rw [← List.append_assoc, ← List.append_assoc kept more]
    refine .hunk (kept ++ more) ?_ ?_ rest
    · rw [hold, ho, List.length_append, Nat.add_assoc]
    · rw [hnew, hn, List.length_append, Nat.add_assoc]

/-- Lines behind that are the same on both sides. -/
theorem append (ht : Turns o n old hs new) (lines : List Bytes) :
    Turns o n (old ++ lines) hs (new ++ lines) := by
  induction ht with
  | done first => exact .done _
  | hunk kept hold hnew _ ih =>
    simp only [List.append_assoc]
    exact .hunk kept hold hnew ih

/-- Hunks without a change can be left out. -/
theorem filter (ht : Turns o n old hs new) :
    Turns o n old (hs.filter fun h ↦ h.edits.any Edit.isChange) new := by
  induction ht with
  | done lines => exact .done _
  | @hunk o n h hs old new kept hold hnew _ ih =>
    rw [List.filter_cons]
    split
    case isTrue => exact .hunk kept hold hnew ih
    case isFalse hnone =>
      have hsame := Hunk.oldLines_eq_newLines (Bool.eq_false_iff.2 hnone)
      rw [← hsame] at ih ⊢
      exact .skip kept hold hnew (.skip h.oldLines rfl rfl ih)

/-- A hunk that stands right here. -/
theorem here (edits : List Edit) (ho : o' = o + (edits.flatMap Edit.old).length)
    (hn : n' = n + (edits.flatMap Edit.new).length) (rest : Turns o' n' old hs new) :
    Turns o n (edits.flatMap Edit.old ++ old) (⟨o, n, edits⟩ :: hs)
      (edits.flatMap Edit.new ++ new) := by
  subst ho hn
  exact .hunk (h := ⟨o, n, edits⟩) [] rfl rfl rest

/-- An edit joins the hunk that starts right behind it, or is a hunk of its own if there is none. -/
theorem prepend (e : Edit) (ho : o' = o + e.old.length) (hn : n' = n + e.new.length)
    (ht : Turns o' n' old hs new) (hfirst : ∀ h ∈ hs.head?, h.old = o') :
    Turns o n (e.old ++ old) (Diff.prepend o n e hs) (e.new ++ new) := by
  cases ht with
  | done lines =>
    have hturns := here [e] (by simpa using ho) (by simpa using hn) (.done old)
    rwa [List.flatMap_singleton, List.flatMap_singleton] at hturns
  | @hunk _ _ h hs old new kept hold hnew rest =>
    have hstart := hfirst h rfl
    obtain rfl : kept = [] := List.eq_nil_of_length_eq_zero (by omega)
    have hstop : h.old + h.oldLines.length = o + ((e :: h.edits).flatMap Edit.old).length := by
      rw [hstart, ho, List.flatMap_cons, List.length_append, ← Nat.add_assoc]
      rfl
    have hstop' : h.new + h.newLines.length = n + ((e :: h.edits).flatMap Edit.new).length := by
      rw [hnew, hn, List.flatMap_cons, List.length_append, ← Nat.add_assoc]
      rfl
    have hturns := here (e :: h.edits) hstop hstop' rest
    rw [List.flatMap_cons, List.flatMap_cons, List.append_assoc, List.append_assoc] at hturns
    exact hturns

end Turns

/-! ### The hunks of edits -/

/-- The first hunk that an edit is put in front of stands where the edit does. -/
theorem old_of_mem_head?_prepend (hh : h ∈ (prepend o n e hs).head?) : h.old = o := by
  cases hs with
  | nil => exact (Option.mem_some.1 hh) ▸ rfl
  | cons first rest => exact (Option.mem_some.1 hh) ▸ rfl

/-- The first hunk starts where the edits do. -/
theorem old_of_mem_head?_hunksFrom (hh : h ∈ (hunksFrom o n edits).head?) : h.old = o := by
  cases edits with
  | nil => cases hh
  | cons e edits =>
    cases e with
    | keep lines =>
      rw [hunksFrom] at hh
      dsimp only at hh
      split at hh
      · exact (Option.mem_some.1 hh) ▸ rfl
      · exact old_of_mem_head?_prepend hh
    | change removed added => exact old_of_mem_head?_prepend hh

/-- The lines of a long stretch between its first and its last ones. -/
theorem exists_middle {lines : List Bytes} (hlong : 2 * contextLines < lines.length) :
    ∃ middle, contextLines + middle.length = lines.length - contextLines ∧
      lines = lines.take contextLines ++ (middle ++ lines.drop (lines.length - contextLines)) := by
  have hcut : contextLines ≤ lines.length - contextLines := by omega
  refine ⟨(lines.take (lines.length - contextLines)).drop contextLines, ?_, ?_⟩
  · rw [List.length_drop, List.length_take]
    omega
  · have hfirst : lines.take contextLines
        = (lines.take (lines.length - contextLines)).take contextLines := by
      rw [List.take_take, Nat.min_eq_left hcut]
    rw [hfirst, ← List.append_assoc, List.take_append_drop, List.take_append_drop]

/-- The hunks of edits turn the old side of the edits into the new one. -/
theorem turns_hunksFrom (o n : Nat) (edits : List Edit) :
    Turns o n (edits.flatMap Edit.old) (hunksFrom o n edits) (edits.flatMap Edit.new) := by
  induction edits generalizing o n with
  | nil => exact .done []
  | cons e edits ih =>
    rw [List.flatMap_cons, List.flatMap_cons]
    have hrest := ih (o + e.old.length) (n + e.new.length)
    have hfirst := @old_of_mem_head?_hunksFrom (o + e.old.length) (n + e.new.length)
    have hwhole := hrest.prepend e rfl rfl fun _ ↦ hfirst
    cases e with
    | change removed added => exact hwhole
    | keep lines =>
      rw [hunksFrom]
      dsimp only
      split
      case isFalse => exact hwhole
      case isTrue hlong =>
        -- The first lines end a hunk, the last ones start another, and those between are skipped.
        obtain ⟨middle, hmiddle, hlines⟩ := exists_middle hlong
        set cut := lines.length - contextLines with hcut
        have hlast : o + lines.length = o + cut + (lines.drop cut).length ∧
            n + lines.length = n + cut + (lines.drop cut).length := by
          rw [List.length_drop]
          omega
        have hlength : (lines.take contextLines).length = contextLines := by
          rw [List.length_take]
          omega
        have hbehind := hrest.prepend (.keep (lines.drop cut)) hlast.1 hlast.2 fun _ ↦ hfirst
        have hskipped := hbehind.skip middle (o := o + contextLines) (n := n + contextLines)
          (by omega) (by omega)
        have hturns := hskipped.here [.keep (lines.take contextLines)] (o := o) (n := n)
          (by simp [Edit.old, hlength]) (by simp [Edit.new, hlength])
        simp only [List.flatMap_singleton, Edit.old, Edit.new, ← List.append_assoc]
          at hturns hlines ⊢
        rwa [← hlines] at hturns

/-- What is cut off at the end are lines that are the same on both sides. -/
theorem exists_trimEnd (edits : List Edit) :
    ∃ lines, edits.flatMap Edit.old = (trimEnd edits).flatMap Edit.old ++ lines ∧
      edits.flatMap Edit.new = (trimEnd edits).flatMap Edit.new ++ lines := by
  fun_induction trimEnd edits with
  | case1 => exact ⟨[], rfl, rfl⟩
  | case2 lines =>
    exact ⟨lines.drop contextLines, by simp [Edit.old], by simp [Edit.new]⟩
  | case3 e edits _ ih =>
    obtain ⟨lines, hold, hnew⟩ := ih
    exact ⟨lines, by simp [hold], by simp [hnew]⟩

/-- **Hunks.** The hunks of a list of edits turn its old side into its new side. -/
theorem turns_hunks (edits : List Edit) :
    Turns 0 0 (edits.flatMap Edit.old) (hunks edits) (edits.flatMap Edit.new) := by
  obtain ⟨lines, hold, hnew⟩ := exists_trimEnd edits
  rw [hold, hnew, hunks]
  refine .append (.filter ?_) lines
  generalize trimEnd edits = edits
  split
  case h_1 first rest =>
    set cut := first.length - contextLines
    have hlength : cut = 0 + (first.take cut).length := by
      rw [List.length_take]
      omega
    have hturns := (turns_hunksFrom cut cut (.keep (first.drop cut) :: rest)).skip _ hlength hlength
    simp only [List.flatMap_cons, Edit.old, Edit.new, ← List.append_assoc,
      List.take_append_drop] at hturns ⊢
    exact hturns
  case h_2 => exact turns_hunksFrom 0 0 edits

/-- Kept lines alone make no hunk. -/
theorem hunks_keep (lines : List Bytes) : hunks [.keep lines] = [] := by
  rw [hunks, List.filter_eq_nil_iff]
  intro h hh
  simp only [trimEnd, hunksFrom, List.length_drop, List.length_take] at hh
  rw [if_neg (by simp only [contextLines]; omega)] at hh
  simp only [prepend, List.mem_singleton] at hh
  simp [hh, Edit.isChange]

end Diff

end ColonGap
