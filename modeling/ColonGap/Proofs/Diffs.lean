import ColonGap.Diff
import ColonGap.Proofs.Decimals
import ColonGap.Proofs.Hunks
import ColonGap.Proofs.Lines
import Mathlib.Data.List.Basic

/-!
# Unified diffs can be read and applied

A diff is a text, and what it says is what a reader makes of it. `read?` reads the hunks of a diff
with the numbers in their headers and the marks of their lines, and `patched?` applies them to a
list of lines. It takes nothing for granted: it fails if hunks overlap or are out of order, if a
header counts wrong, or if a line that is kept or removed is not the one that stands there. The diff
of two texts can be read, and applied to the lines of the old text it gives those of the new one
(`unified_applies`).

## Where the numbers are

The number of an empty range is that of the line before it, all others are numbered by their first
line. `LineRange.start` undoes this, so that everything else counts the lines before a place.
-/

namespace ColonGap

namespace Diff

/-! ### Reading -/

/-- How a line of a hunk is marked. -/
inductive Mark where
  | kept
  | removed
  | added
deriving DecidableEq, Repr

/-- The mark that a byte stands for. -/
def Mark.ofByte? (b : UInt8) : Option Mark :=
  if b = 32 then some .kept
  else if b = 45 then some .removed
  else if b = 43 then some .added
  else none

/-- A range of lines as a header gives it: the number of the first line, and how many they are. -/
structure LineRange where
  first : Nat
  count : Nat
deriving DecidableEq, Repr

namespace LineRange

/-- The number of lines before a range. An empty one is numbered by the line before it. -/
def start (r : LineRange) : Nat :=
  if r.count = 0 then r.first else r.first - 1

/-- The number of lines before the end of a range. -/
def stop (r : LineRange) : Nat :=
  r.start + r.count

/-- The lines in a range. -/
def slice (r : LineRange) (lines : List Bytes) : List Bytes :=
  (lines.drop r.start).take r.count

end LineRange

/-- A hunk as it is read: the ranges of its header and its lines with their marks. -/
structure Block where
  old : LineRange
  new : LineRange
  body : List (Mark × Bytes)
deriving DecidableEq, Repr

namespace Block

/-- The lines that are kept or removed. -/
def oldLines (b : Block) : List Bytes :=
  (b.body.filter fun line ↦ line.1 != .added).map Prod.snd

/-- The lines that are kept or added. -/
def newLines (b : Block) : List Bytes :=
  (b.body.filter fun line ↦ line.1 != .removed).map Prod.snd

end Block

/-- The range that a text starts with, and what stands behind it. -/
def readRange? (s : Bytes) : Option (LineRange × Bytes) :=
  match readNumber? s with
  | none => none
  | some (first, 44 :: rest) => (readNumber? rest).map fun (count, rest) ↦ (⟨first, count⟩, rest)
  | some (first, rest) => some (⟨first, 1⟩, rest)

/-- The ranges in a header line. -/
def readHeader? (line : Bytes) : Option (LineRange × LineRange) := do
  let s ← line.dropPrefix? (utf8 "@@ -")
  let (old, s) ← readRange? s
  let s ← s.dropPrefix? (utf8 " +")
  let (new, s) ← readRange? s
  if s = utf8 " @@\n" then some (old, new) else none

/-- A line with its mark. -/
def readLine? : Bytes → Option (Mark × Bytes)
  | [] => none
  | b :: text => (Mark.ofByte? b).map fun mark ↦ (mark, text)

/-- The marked lines in front of the first header, and the hunks. -/
def readBlocks? : List Bytes → Option (List (Mark × Bytes) × List Block)
  | [] => some ([], [])
  | line :: lines => do
    let (body, blocks) ← readBlocks? lines
    match readHeader? line with
    | some (old, new) => some ([], ⟨old, new, body⟩ :: blocks)
    | none => (readLine? line).map fun marked ↦ (marked :: body, blocks)

/-- The hunks of a diff: the file is named on two lines, and all else belongs to hunks. The empty
text is a diff without hunks. -/
def read? (text : Bytes) : Option (List Block) :=
  match lines text with
  | [] => some []
  | old :: new :: rest =>
    if (utf8 "--- ").isPrefixOf old && (utf8 "+++ ").isPrefixOf new then
      match readBlocks? rest with
      | some ([], blocks) => some blocks
      | _ => none
    else none
  | [_] => none

/-! ### Applying -/

/-- Apply hunks to lines before which `done` lines have been dealt with. -/
def patched? (done : Nat) (lines : List Bytes) : List Block → Option (List Bytes)
  | [] => some lines
  | b :: blocks =>
    let skipped := b.old.start - done
    if done ≤ b.old.start ∧ b.old.count = b.oldLines.length ∧ b.new.count = b.newLines.length ∧
        b.oldLines.isPrefixOf (lines.drop skipped) = true then
      (patched? b.old.stop (lines.drop (skipped + b.old.count)) blocks).map fun rest ↦
        lines.take skipped ++ (b.newLines ++ rest)
    else none

/-! ### What is read -/

/-- The range of `count` lines behind `start` lines. -/
def LineRange.behind (start count : Nat) : LineRange :=
  ⟨if count = 0 then start else start + 1, count⟩

@[simp] theorem LineRange.start_behind (start count : Nat) :
    (behind start count).start = start := by
  by_cases h : count = 0 <;> simp [behind, LineRange.start, h]

@[simp] theorem LineRange.count_behind (start count : Nat) : (behind start count).count = count :=
  rfl

/-- Lines behind as many lines as stand before a range are the lines in it. -/
theorem LineRange.slice_behind (front lines back : List Bytes) :
    (behind front.length lines.length).slice (front ++ (lines ++ back)) = lines := by
  rw [slice, start_behind, count_behind, List.drop_left, List.take_left]

/-- The text of a range is read as the range, if no digit or comma follows. -/
theorem readRange?_rangeText (start count : Nat) {s : Bytes}
    (h : ∀ b ∈ s.head?, isDecimalDigit b = false ∧ b ≠ 44) :
    readRange? (rangeText start count ++ s) = some (.behind start count, s) := by
  have hs : ∀ b ∈ s.head?, isDecimalDigit b = false := fun b hb ↦ (h b hb).1
  by_cases hone : count = 1
  · subst hone
    rw [readRange?, rangeText]
    simp only [beq_self_eq_true, if_true]
    rw [readNumber?_decimal _ hs]
    cases s with
    | nil => rfl
    | cons b s =>
      have hb : b ≠ 44 := (h b rfl).2
      simp [hb, LineRange.behind]
  · have hcomma : ∀ b ∈ (utf8 "," ++ (decimal count ++ s)).head?, isDecimalDigit b = false := by
      rintro b ⟨⟩
      decide
    rw [readRange?, rangeText, if_neg (by simpa using hone), List.append_assoc, List.append_assoc,
      readNumber?_decimal _ hcomma]
    have hutf8 : utf8 "," ++ (decimal count ++ s) = 44 :: (decimal count ++ s) := rfl
    simp only [hutf8, readNumber?_decimal _ hs, Option.map_some]
    by_cases hzero : count = 0 <;> simp [LineRange.behind, hzero]

/-- How a mark is written. -/
def Mark.byte : Mark → UInt8
  | .kept => 32
  | .removed => 45
  | .added => 43

/-- The lines of an edit with their marks. -/
def Edit.body : Edit → List (Mark × Bytes)
  | .keep lines => lines.map (Mark.kept, ·)
  | .change removed added => removed.map (Mark.removed, ·) ++ added.map (Mark.added, ·)

/-- A marked line as it is written. -/
def writeLine (line : Mark × Bytes) : Bytes :=
  line.1.byte :: line.2

/-- The text of an edit is that of its marked lines. -/
theorem Edit.text_eq (e : Edit) : e.text = (e.body.map writeLine).flatten := by
  cases e with
  | keep lines =>
    simp [Edit.text, marked, body, writeLine, Mark.byte, List.flatMap, Function.comp_def]
  | change removed added =>
    simp [Edit.text, marked, body, writeLine, Mark.byte, List.flatMap, Function.comp_def]

theorem readLine?_writeLine (line : Mark × Bytes) : readLine? (writeLine line) = some line := by
  obtain ⟨mark, text⟩ := line
  cases mark <;> rfl

/-- No mark starts a header. -/
theorem readHeader?_writeLine (line : Mark × Bytes) : readHeader? (writeLine line) = none := by
  have hfirst : (writeLine line).dropPrefix? (utf8 "@@ -") = none := by
    obtain ⟨mark, text⟩ := line
    cases mark <;> rfl
  rw [readHeader?, hfirst]
  rfl

namespace Hunk

/-- What is read from the text of a hunk. -/
def block (h : Hunk) : Block :=
  ⟨.behind h.old h.oldLines.length, .behind h.new h.newLines.length, h.edits.flatMap Edit.body⟩

@[simp] theorem old_block (h : Hunk) : h.block.old = .behind h.old h.oldLines.length :=
  rfl

@[simp] theorem new_block (h : Hunk) : h.block.new = .behind h.new h.newLines.length :=
  rfl

@[simp] theorem oldLines_block (h : Hunk) : h.block.oldLines = h.oldLines := by
  rw [Block.oldLines, block, oldLines, List.filter_flatMap, List.map_flatMap]
  refine List.flatMap_congr fun e _ ↦ ?_
  cases e <;> simp [Edit.body, Edit.old, List.filter_map, Function.comp_def]

@[simp] theorem newLines_block (h : Hunk) : h.block.newLines = h.newLines := by
  rw [Block.newLines, block, newLines, List.filter_flatMap, List.map_flatMap]
  refine List.flatMap_congr fun e _ ↦ ?_
  cases e <;> simp [Edit.body, Edit.new, List.filter_map, Function.comp_def]

/-- Every marked line is an old or a new one. -/
theorem mem_of_mem_body {h : Hunk} {line : Mark × Bytes} (hline : line ∈ h.block.body) :
    line.2 ∈ h.oldLines ∨ line.2 ∈ h.newLines := by
  obtain ⟨e, he, hline⟩ := List.mem_flatMap.1 hline
  have hside : line.2 ∈ e.old ∨ line.2 ∈ e.new := by
    cases e with
    | keep lines =>
      obtain ⟨text, htext, rfl⟩ := List.mem_map.1 hline
      exact .inl htext
    | change removed added =>
      rcases List.mem_append.1 hline with hline | hline
      · obtain ⟨text, htext, rfl⟩ := List.mem_map.1 hline
        exact .inl htext
      · obtain ⟨text, htext, rfl⟩ := List.mem_map.1 hline
        exact .inr htext
  exact hside.imp (fun hold ↦ List.mem_flatMap.2 ⟨e, he, hold⟩)
    fun hnew ↦ List.mem_flatMap.2 ⟨e, he, hnew⟩

/-- The header line of a hunk without its line feed. -/
def heading (h : Hunk) : Bytes :=
  utf8 "@@ -" ++ (rangeText h.old h.oldLines.length ++ (utf8 " +" ++
    (rangeText h.new h.newLines.length ++ utf8 " @@")))

/-- The lines that a hunk is written in. -/
def textLines (h : Hunk) : List Bytes :=
  (h.heading ++ [10]) :: h.block.body.map writeLine

/-- The text of a hunk is its header followed by its lines. -/
theorem text_eq (h : Hunk) : h.text = h.textLines.flatten := by
  have hbody : h.edits.flatMap Edit.text = (h.block.body.map writeLine).flatten := by
    rw [block, List.map_flatMap, List.flatten_eq_flatMap, List.flatMap_assoc]
    exact List.flatMap_congr fun e _ ↦ e.text_eq.trans List.flatten_eq_flatMap
  have hend : utf8 " @@\n" = utf8 " @@" ++ [10] := by decide
  rw [textLines, List.flatten_cons, ← hbody, text, heading, hend]
  simp only [List.append_assoc, oldLines, newLines]

/-- The header of a hunk says which ranges it replaces and by which. -/
theorem readHeader?_heading (h : Hunk) :
    readHeader? (h.heading ++ [10]) = some (h.block.old, h.block.new) := by
  have hstrip (p s : Bytes) : (p ++ s).dropPrefix? p = some s :=
    List.dropPrefix?_eq_some_iff.2 ⟨p, rfl, beq_self_eq_true p⟩
  have hblank (s : Bytes) : ∀ b ∈ (32 :: s).head?, isDecimalDigit b = false ∧ b ≠ 44 := by
    rintro b ⟨⟩
    decide
  have hnew : readRange? (rangeText h.new h.newLines.length ++ utf8 " @@\n")
      = some (h.block.new, utf8 " @@\n") := readRange?_rangeText _ _ (hblank _)
  have hold : readRange? (rangeText h.old h.oldLines.length ++ (utf8 " +" ++
      (rangeText h.new h.newLines.length ++ utf8 " @@\n")))
      = some (h.block.old, utf8 " +" ++ (rangeText h.new h.newLines.length ++ utf8 " @@\n")) :=
    readRange?_rangeText _ _ (hblank _)
  have hend : utf8 " @@" ++ [10] = utf8 " @@\n" := by decide
  simp only [heading, List.append_assoc, hend, readHeader?, hstrip, hold, hnew, Option.bind_eq_bind,
    Option.bind_some, if_true]

/-- A heading is on one line. -/
theorem not_mem_heading (h : Hunk) : 10 ∉ h.heading := by
  have hdecimal (n : Nat) : 10 ∉ decimal n := fun hmem ↦
    absurd (isDecimalDigit_of_mem_decimal hmem) (by decide)
  have hrange (start count : Nat) : 10 ∉ rangeText start count := by
    rw [rangeText]
    split
    · exact hdecimal _
    · simp only [List.mem_append, not_or]
      exact ⟨⟨hdecimal _, by decide⟩, hdecimal _⟩
  simp only [heading, List.mem_append, not_or]
  exact ⟨by decide, hrange _ _, by decide, hrange _ _, by decide⟩

/-- A hunk of lines is written in lines. -/
theorem isLine_of_mem_textLines {h : Hunk} (hold : ∀ line ∈ h.oldLines, IsLine line)
    (hnew : ∀ line ∈ h.newLines, IsLine line) {line : Bytes} (hline : line ∈ h.textLines) :
    IsLine line := by
  rcases List.mem_cons.1 hline with rfl | hline
  · exact isLine_append h.not_mem_heading
  · obtain ⟨⟨mark, text⟩, hmarked, rfl⟩ := List.mem_map.1 hline
    have htext : IsLine text := (mem_of_mem_body hmarked).elim (hold text) (hnew text)
    have hmark : mark.byte ≠ 10 := by cases mark <;> decide
    exact htext.cons hmark

end Hunk

/-- Marked lines in front belong to the hunk whose header is in front of them. -/
theorem readBlocks?_append {rest : List Bytes} {more : List (Mark × Bytes)} {blocks : List Block}
    (hrest : readBlocks? rest = some (more, blocks)) (body : List (Mark × Bytes)) :
    readBlocks? (body.map writeLine ++ rest) = some (body ++ more, blocks) := by
  induction body with
  | nil => exact hrest
  | cons line body ih =>
    rw [List.map_cons, List.cons_append, readBlocks?, ih, readHeader?_writeLine,
      readLine?_writeLine]
    rfl

/-- Hunks are read back. -/
theorem readBlocks?_textLines (hs : List Hunk) :
    readBlocks? (hs.flatMap Hunk.textLines) = some ([], hs.map Hunk.block) := by
  induction hs with
  | nil => rfl
  | cons h hs ih =>
    have hbody := readBlocks?_append ih h.block.body
    rw [List.flatMap_cons, Hunk.textLines, List.cons_append, readBlocks?, hbody,
      Hunk.readHeader?_heading, List.append_nil]
    rfl

/-! ### What hunks do -/

namespace Turns

variable {o n : Nat} {old new : List Bytes} {hs : List Hunk}

/-- A hunk stands behind all lines that have gone before. -/
theorem le_of_mem (ht : Turns o n old hs new) {h : Hunk} (hh : h ∈ hs) : o ≤ h.old ∧ n ≤ h.new := by
  induction ht with
  | done lines => cases hh
  | hunk kept hold hnew _ ih =>
    rcases List.mem_cons.1 hh with rfl | hh
    · omega
    · have := ih hh
      omega

/-- A hunk starts behind the end of every one before it. -/
theorem pairwise (ht : Turns o n old hs new) :
    hs.Pairwise fun h k ↦
      h.old + h.oldLines.length ≤ k.old ∧ h.new + h.newLines.length ≤ k.new := by
  induction ht with
  | done lines => exact .nil
  | hunk kept hold hnew rest ih => exact .cons (fun k hk ↦ rest.le_of_mem hk) ih

/-- The lines of a hunk stand at its place. -/
theorem exists_append_of_mem (ht : Turns o n old hs new) {h : Hunk} (hh : h ∈ hs) :
    (∃ front back, old = front ++ (h.oldLines ++ back) ∧ o + front.length = h.old) ∧
      ∃ front back, new = front ++ (h.newLines ++ back) ∧ n + front.length = h.new := by
  induction ht with
  | done lines => cases hh
  | @hunk o n first hs old new kept hold hnew rest ih =>
    rcases List.mem_cons.1 hh with rfl | hh
    · exact ⟨⟨kept, old, rfl, hold.symm⟩, ⟨kept, new, rfl, hnew.symm⟩⟩
    · obtain ⟨⟨front, back, rfl, hfront⟩, ⟨front', back', rfl, hfront'⟩⟩ := ih hh
      refine ⟨⟨kept ++ (first.oldLines ++ front), back, by simp, ?_⟩,
        ⟨kept ++ (first.newLines ++ front'), back', by simp, ?_⟩⟩
      · simp only [List.length_append]
        omega
      · simp only [List.length_append]
        omega

/-- **Hunks apply.** What is read from hunks that turn old lines into new ones does so. -/
theorem patched?_eq (ht : Turns o n old hs new) :
    patched? o old (hs.map Hunk.block) = some new := by
  induction ht with
  | done lines => rfl
  | @hunk o n h hs old new kept hold hnew rest ih =>
    have hskipped : h.old - o = kept.length := by omega
    have hrest : (kept ++ (h.oldLines ++ old)).drop (kept.length + h.oldLines.length) = old := by
      rw [← List.append_assoc, ← List.length_append, List.drop_left]
    have happlies : o ≤ h.old ∧ h.oldLines.isPrefixOf (h.oldLines ++ old) = true :=
      ⟨by omega, List.isPrefixOf_iff_prefix.2 (List.prefix_append _ _)⟩
    rw [List.map_cons, patched?]
    simp [LineRange.stop, hskipped, hrest, ih, happlies]

end Turns

/-! ### The diff of two texts -/

theorem turns_lines (old new : Bytes) :
    Turns 0 0 (lines old) (hunks (edits (lines old) (lines new))) (lines new) := by
  have hturns := turns_hunks (edits (lines old) (lines new))
  rwa [flatMap_old_edits, flatMap_new_edits] at hturns

theorem Turns.eq_of_nil {o n : Nat} {old new : List Bytes} (ht : Turns o n old [] new) :
    old = new := by
  cases ht with
  | done => rfl

/-- Texts have no hunks if and only if they have the same lines. -/
theorem hunks_eq_nil_iff (old new : Bytes) :
    hunks (edits (lines old) (lines new)) = [] ↔ lines old = lines new := by
  constructor
  · intro hnone
    have hturns := turns_lines old new
    rw [hnone] at hturns
    exact hturns.eq_of_nil
  · intro hsame
    rw [hsame, edits_self]
    split
    · rfl
    · exact hunks_keep _

/-- Texts with the same lines have an empty diff. -/
theorem unified_of_lines_eq {old new : Bytes} (name : Bytes) (hsame : lines old = lines new) :
    unified name old new = [] := by
  rw [unified]
  split
  · rfl
  · rw [(hunks_eq_nil_iff old new).2 hsame]

/-- The diff of texts with different lines is a header and the text of its hunks. -/
theorem unified_of_lines_ne {old new : Bytes} (name : Bytes) (hdiff : lines old ≠ lines new) :
    unified name old new
      = header name ++ (hunks (edits (lines old) (lines new))).flatMap Hunk.text := by
  have hne : ¬ (old == new) = true := fun hsame ↦ hdiff (congrArg lines (eq_of_beq hsame))
  rw [unified, if_neg hne]
  split
  case h_1 hnone => exact absurd ((hunks_eq_nil_iff old new).1 hnone) hdiff
  case h_2 => rfl

/-- A diff is empty if and only if the texts have the same lines. -/
theorem unified_eq_nil_iff (name old new : Bytes) :
    unified name old new = [] ↔ lines old = lines new := by
  refine ⟨fun hnil ↦ ?_, unified_of_lines_eq name⟩
  by_contra hdiff
  rw [unified_of_lines_ne name hdiff, header] at hnil
  simp [utf8] at hnil

/-- Every line of a hunk ends where a line ends. -/
theorem isLine_of_mem_hunks {old new : Bytes} {line : Bytes}
    (hline : line ∈ (hunks (edits (lines old) (lines new))).flatMap Hunk.textLines) :
    IsLine line := by
  obtain ⟨h, hh, hline⟩ := List.mem_flatMap.1 hline
  obtain ⟨⟨front, back, hold, -⟩, ⟨front', back', hnew, -⟩⟩ :=
    (turns_lines old new).exists_append_of_mem hh
  refine Hunk.isLine_of_mem_textLines (fun text htext ↦ ?_) (fun text htext ↦ ?_) hline
  · exact isLine_of_mem_lines (s := old) (hold ▸ by simp [htext])
  · exact isLine_of_mem_lines (s := new) (hnew ▸ by simp [htext])

/-- A diff that is not empty is written in lines: two that name the file, then those of its
hunks. -/
theorem lines_unified {name old new : Bytes} (hname : 10 ∉ name) (hdiff : lines old ≠ lines new) :
    lines (unified name old new)
      = (utf8 "--- a/" ++ name ++ [10]) :: (utf8 "+++ b/" ++ name ++ [10])
        :: (hunks (edits (lines old) (lines new))).flatMap Hunk.textLines := by
  have hfeed : utf8 "\n+++ b/" = [10] ++ utf8 "+++ b/" ∧ utf8 "\n" = [10] := by decide
  have htext : (hunks (edits (lines old) (lines new))).flatMap Hunk.text
      = ((hunks (edits (lines old) (lines new))).flatMap Hunk.textLines).flatten := by
    rw [List.flatten_eq_flatMap, List.flatMap_assoc]
    exact List.flatMap_congr fun h _ ↦ h.text_eq.trans List.flatten_eq_flatMap
  have hunified : unified name old new = ((utf8 "--- a/" ++ name ++ [10])
      :: (utf8 "+++ b/" ++ name ++ [10])
      :: (hunks (edits (lines old) (lines new))).flatMap Hunk.textLines).flatten := by
    rw [unified_of_lines_ne name hdiff, htext, header, hfeed.1, hfeed.2, List.flatten_cons,
      List.flatten_cons]
    simp only [List.append_assoc]
  rw [hunified, lines_flatten]
  refine List.forall_mem_cons.2 ⟨isLine_append ?_, List.forall_mem_cons.2 ⟨isLine_append ?_, ?_⟩⟩
  · exact List.mem_append.not.2 (not_or.2 ⟨by decide, hname⟩)
  · exact List.mem_append.not.2 (not_or.2 ⟨by decide, hname⟩)
  · exact fun line ↦ isLine_of_mem_hunks

/-- What is read from a diff are its hunks. -/
theorem read?_unified {name : Bytes} (hname : 10 ∉ name) (old new : Bytes) :
    read? (unified name old new)
      = some ((hunks (edits (lines old) (lines new))).map Hunk.block) := by
  by_cases hsame : lines old = lines new
  · rw [unified_of_lines_eq name hsame, (hunks_eq_nil_iff old new).2 hsame]
    rfl
  · have hnames : ((utf8 "--- ").isPrefixOf (utf8 "--- a/" ++ name ++ [10])
        && (utf8 "+++ ").isPrefixOf (utf8 "+++ b/" ++ name ++ [10])) = true := rfl
    rw [read?, lines_unified hname hsame]
    simp only [hnames, if_true, readBlocks?_textLines]

/-- **Diffs apply.** The diff of two texts, under a name on one line, can be read, and applied to
the lines of the old text it gives those of the new one: its hunks follow one another in both texts,
count their lines right, and hold the lines that stand at their places. It is empty if and only if
the texts have the same lines. -/
theorem unified_applies (name old new : Bytes) (hname : 10 ∉ name) :
    (∃ blocks, read? (unified name old new) = some blocks ∧
      patched? 0 (lines old) blocks = some (lines new) ∧
      blocks.Pairwise (fun b c ↦ b.old.stop ≤ c.old.start ∧ b.new.stop ≤ c.new.start) ∧
      ∀ b ∈ blocks, b.old.count = b.oldLines.length ∧ b.new.count = b.newLines.length ∧
        b.old.slice (lines old) = b.oldLines ∧ b.new.slice (lines new) = b.newLines) ∧
    (unified name old new = [] ↔ lines old = lines new) := by
  have hturns := turns_lines old new
  refine ⟨⟨_, read?_unified hname old new, hturns.patched?_eq, ?_, ?_⟩,
    unified_eq_nil_iff name old new⟩
  · refine List.pairwise_map.2 (hturns.pairwise.imp fun hbefore ↦ ?_)
    simpa [LineRange.stop] using hbefore
  · intro b hb
    obtain ⟨h, hh, rfl⟩ := List.mem_map.1 hb
    obtain ⟨⟨front, back, hold, hfront⟩, ⟨front', back', hnew, hfront'⟩⟩ :=
      hturns.exists_append_of_mem hh
    rw [Nat.zero_add] at hfront hfront'
    refine ⟨by simp, by simp, ?_, ?_⟩
    · rw [hold, Hunk.oldLines_block, Hunk.old_block, ← hfront, LineRange.slice_behind]
    · rw [hnew, Hunk.newLines_block, Hunk.new_block, ← hfront', LineRange.slice_behind]

/-- A line is removed at the start and one without a line feed is added far behind it, so there are
two hunks, and the second one is numbered differently in the two texts. -/
theorem unified_applies_two_hunks :
    10 ∉ utf8 "a.js" ∧
    unified (utf8 "a.js") (utf8 "1\n2\n3\n4\n5\n6\n7\n8\n") (utf8 "2\n3\n4\n5\n6\n7\n8\n9") ≠ [] ∧
    ∃ blocks,
      read? (unified (utf8 "a.js") (utf8 "1\n2\n3\n4\n5\n6\n7\n8\n")
        (utf8 "2\n3\n4\n5\n6\n7\n8\n9")) = some blocks ∧
      patched? 0 (lines (utf8 "1\n2\n3\n4\n5\n6\n7\n8\n")) blocks
        = some (lines (utf8 "2\n3\n4\n5\n6\n7\n8\n9")) := by
  have hname : 10 ∉ utf8 "a.js" := by decide
  obtain ⟨⟨blocks, hread, happly, -⟩, hempty⟩ := unified_applies (utf8 "a.js")
    (utf8 "1\n2\n3\n4\n5\n6\n7\n8\n") (utf8 "2\n3\n4\n5\n6\n7\n8\n9") hname
  exact ⟨hname, hempty.not.2 (by decide), blocks, hread, happly⟩

end Diff

end ColonGap
