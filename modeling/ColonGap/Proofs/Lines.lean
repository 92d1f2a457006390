import ColonGap.Diff.Lines
import Mathlib.Data.List.Basic
import Mathlib.Tactic.Common

/-!
# Lines of a text

A *line* ends with a line feed and holds no other (`IsLine`). The lines of a text are lines
(`isLine_of_mem_lines`), and put together they are the text, with a line feed behind it if its last
line lacks one (`flatten_lines`). The other way round, a text that is put together from lines has
these lines (`lines_flatten`), so a text can be written line by line and read back.

What lines do not tell of a text is whether its last line was closed, and nothing else
(`lines_preserve`). A comparison of lines is blind to this one change.
-/

namespace ColonGap

namespace Diff

variable {s t line : Bytes} {all : List Bytes}

/-- A text that ends with a line feed and holds no other. -/
def IsLine (line : Bytes) : Prop :=
  ∃ text, line = text ++ [10] ∧ 10 ∉ text

theorem IsLine.cons {b : UInt8} (hb : b ≠ 10) (h : IsLine line) : IsLine (b :: line) := by
  obtain ⟨text, rfl, htext⟩ := h
  exact ⟨b :: text, rfl, by simp [hb.symm, htext]⟩

theorem isLine_append {text : Bytes} (h : 10 ∉ text) : IsLine (text ++ [10]) :=
  ⟨text, rfl, h⟩

@[simp] theorem lines_eq_nil_iff : lines s = [] ↔ s = [] := by
  cases s with
  | nil => simp [lines]
  | cons b rest =>
    rw [lines]
    split
    · simp
    · split <;> simp

/-- A byte that ends no line belongs to the first one. -/
theorem lines_cons {b : UInt8} (hb : b ≠ 10) (hs : lines s = line :: all) :
    lines (b :: s) = (b :: line) :: all := by
  rw [lines, if_neg hb, hs]

/-- The lines of a text are lines. -/
theorem isLine_of_mem_lines (h : line ∈ lines s) : IsLine line := by
  induction s generalizing line with
  | nil => cases h
  | cons b rest ih =>
    by_cases hb : b = 10
    · rw [lines, if_pos hb] at h
      rcases List.mem_cons.1 h with rfl | h
      · exact ⟨[], rfl, List.not_mem_nil⟩
      · exact ih h
    · cases hlines : lines rest with
      | nil =>
        rw [lines, if_neg hb, hlines] at h
        obtain rfl : line = [b] ++ [10] := by simpa using h
        exact isLine_append (by simpa using Ne.symm hb)
      | cons first others =>
        rw [lines_cons hb hlines] at h
        rw [hlines] at ih
        rcases List.mem_cons.1 h with rfl | h
        · exact .cons hb (ih List.mem_cons_self)
        · exact ih (List.mem_cons_of_mem _ h)

/-- The line feed that the last line of a text lacks, if it does. -/
def closing (s : Bytes) : Bytes :=
  if s.getLast?.all (· == 10) then [] else [10]

theorem closing_eq (s : Bytes) : closing s = [] ∨ closing s = [10] := by
  rw [closing]
  exact ite_eq_or_eq _ _ _

/-- A line feed is lacking behind a last byte that is not one. The empty text lacks none. -/
theorem closing_eq_feed_iff : closing s = [10] ↔ s ≠ [] ∧ s.getLast? ≠ some 10 := by
  rw [closing]
  cases hlast : s.getLast? with
  | none => simp [List.getLast?_eq_none_iff.1 hlast]
  | some b =>
    have hs : s ≠ [] := by
      rintro rfl
      cases hlast
    simp [hs]

/-- Closing a text adds a line feed unless there is one or the text is empty. -/
theorem append_closing (s : Bytes) :
    s ++ closing s = if s = [] ∨ s.getLast? = some 10 then s else s ++ [10] := by
  split
  case isTrue hclosed =>
    have hs : closing s ≠ [10] := by
      rw [Ne, closing_eq_feed_iff, not_and_not_right]
      exact hclosed.resolve_left
    rw [(closing_eq s).resolve_right hs, List.append_nil]
  case isFalse hopen => rw [closing_eq_feed_iff.2 (not_or.1 hopen)]

theorem closing_cons (b : UInt8) (hs : s ≠ []) : closing (b :: s) = closing s := by
  rw [closing, closing, List.getLast?_cons_of_ne_nil hs]

/-- The lines of a text make up the text with its last line closed. -/
theorem flatten_lines (s : Bytes) : (lines s).flatten = s ++ closing s := by
  induction s with
  | nil => rfl
  | cons b rest ih =>
    by_cases hb : b = 10
    · rw [lines, if_pos hb, List.flatten_cons, ih, hb]
      cases rest with
      | nil => rfl
      | cons c rest => rw [closing_cons _ (List.cons_ne_nil c rest)]; rfl
    · cases hlines : lines rest with
      | nil =>
        obtain rfl := lines_eq_nil_iff.1 hlines
        simp [lines, hb, closing]
      | cons first others =>
        have hrest : rest ≠ [] := by
          rintro rfl
          cases hlines
        rw [hlines] at ih
        rw [lines_cons hb hlines, closing_cons b hrest, List.cons_append, ← ih]
        rfl

/-- A line in front of a text is the first of its lines. -/
theorem lines_append (h : IsLine line) (s : Bytes) : lines (line ++ s) = line :: lines s := by
  obtain ⟨text, rfl, htext⟩ := h
  induction text with
  | nil => rfl
  | cons b text ih =>
    rw [List.mem_cons, not_or] at htext
    exact lines_cons (Ne.symm htext.1) (ih htext.2)

/-- A text that is put together from lines has these lines. -/
theorem lines_flatten (h : ∀ line ∈ all, IsLine line) : lines all.flatten = all := by
  induction all with
  | nil => rfl
  | cons line all ih =>
    obtain ⟨hline, hall⟩ := List.forall_mem_cons.1 h
    rw [List.flatten_cons, lines_append hline, ih hall]

/-! ### Texts with the same lines -/

/-- Closing the last line of a text keeps its lines. -/
theorem lines_append_closing (s : Bytes) : lines (s ++ closing s) = lines s := by
  rw [← flatten_lines, lines_flatten fun _ ↦ isLine_of_mem_lines]

/-- Different texts have the same lines if and only if closing the last line of one of them gives
the other. -/
theorem lines_eq_iff :
    lines s = lines t ↔
      s = t ∨ closing s = [10] ∧ t = s ++ [10] ∨ closing t = [10] ∧ s = t ++ [10] := by
  constructor
  · intro hlines
    have hflatten : s ++ closing s = t ++ closing t := by
      rw [← flatten_lines, ← flatten_lines, hlines]
    rcases closing_eq s with hs | hs <;> rcases closing_eq t with ht | ht <;>
      rw [hs, ht] at hflatten
    · exact .inl (List.append_cancel_right hflatten)
    · exact .inr (.inr ⟨ht, by rwa [List.append_nil] at hflatten⟩)
    · exact .inr (.inl ⟨hs, by rw [hflatten, List.append_nil]⟩)
    · exact .inl (List.append_cancel_right hflatten)
  · rintro (rfl | ⟨hs, rfl⟩ | ⟨ht, rfl⟩)
    · rfl
    · rw [← hs, lines_append_closing]
    · rw [← ht, lines_append_closing]

/-- **Lines lose nothing but a missing line feed at the end.** Each line ends with a line feed and
holds no other. Put together they are the text, with a line feed behind it if it is not empty and
does not end with one. So two texts have the same lines if and only if they are the same, or neither
is empty and one of them is the other, which does not end with a line feed, with one behind it. -/
theorem lines_preserve (s t : Bytes) :
    (∀ line ∈ lines s, IsLine line) ∧
      (lines s).flatten = (if s = [] ∨ s.getLast? = some 10 then s else s ++ [10]) ∧
      (lines s = lines t ↔
        s = t ∨ s ≠ [] ∧ t ≠ [] ∧
          (s.getLast? ≠ some 10 ∧ t = s ++ [10] ∨ t.getLast? ≠ some 10 ∧ s = t ++ [10])) := by
  refine ⟨fun line ↦ isLine_of_mem_lines, (flatten_lines s).trans (append_closing s), ?_⟩
  rw [lines_eq_iff, closing_eq_feed_iff, closing_eq_feed_iff]
  constructor
  · rintro (rfl | ⟨⟨hne, hs⟩, rfl⟩ | ⟨⟨hne, ht⟩, rfl⟩)
    · exact .inl rfl
    · exact .inr ⟨hne, by simp, .inl ⟨hs, rfl⟩⟩
    · exact .inr ⟨by simp, hne, .inr ⟨ht, rfl⟩⟩
  · rintro (rfl | ⟨hs, ht, ⟨hlast, rfl⟩ | ⟨hlast, rfl⟩⟩)
    · exact .inl rfl
    · exact .inr (.inl ⟨⟨hs, hlast⟩, rfl⟩)
    · exact .inr (.inr ⟨⟨ht, hlast⟩, rfl⟩)

/-- A text with a blank line inside and no line feed at its end has the same lines as with one, and
not with two. -/
theorem lines_preserve_openEnd :
    let s := utf8 "a\n\nb"
    let t := utf8 "a\n\nb\n"
    utf8 "\n" ∈ lines s ∧ IsLine (utf8 "\n") ∧ (lines s).flatten = t ∧ lines s = lines t ∧
      lines t ≠ lines (t ++ utf8 "\n") := by
  intro s t
  have hmem : utf8 "\n" ∈ lines s := by decide
  obtain ⟨hlines, hflatten, hsame⟩ := lines_preserve s t
  refine ⟨hmem, hlines _ hmem, ?_, hsame.2 (.inr ⟨by decide, by decide, .inl ⟨by decide, rfl⟩⟩), ?_⟩
  · rw [hflatten, if_neg (by decide)]
    rfl
  · exact (lines_preserve t (t ++ utf8 "\n")).2.2.not.2 (by decide)

end Diff

end ColonGap
