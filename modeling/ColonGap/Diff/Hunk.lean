import ColonGap.Diff.Edit

/-!
# Hunks

A hunk is a stretch of edits with a few kept lines around them. Kept lines at either end of the
text are cut down to that many, and a long stretch of kept lines between two changes ends one
hunk and starts another.
-/

namespace ColonGap

namespace Diff

/-- The number of kept lines around changes. -/
def contextLines : Nat := 3

/-- A stretch of edits and the numbers of old and new lines before it. -/
structure Hunk where
  old : Nat
  new : Nat
  edits : List Edit
deriving DecidableEq, Repr

/-- Cut down the kept lines that a list of edits ends with. -/
def trimEnd : List Edit → List Edit
  | [] => []
  | [.keep lines] => [.keep (lines.take contextLines)]
  | edit :: edits => edit :: trimEnd edits

/-- Put an edit in front of the first hunk, which then starts at the given lines. -/
def prepend (old new : Nat) (edit : Edit) : List Hunk → List Hunk
  | [] => [⟨old, new, [edit]⟩]
  | hunk :: hunks => ⟨old, new, edit :: hunk.edits⟩ :: hunks

/-- The hunks of edits before which stand the given numbers of lines. -/
def hunksFrom (old new : Nat) : List Edit → List Hunk
  | [] => []
  | edit :: edits =>
    let rest := hunksFrom (old + edit.old.length) (new + edit.new.length) edits
    match edit with
    | .keep lines =>
      if 2 * contextLines < lines.length then
        let cut := lines.length - contextLines
        ⟨old, new, [.keep (lines.take contextLines)]⟩
          :: prepend (old + cut) (new + cut) (.keep (lines.drop cut)) rest
      else prepend old new edit rest
    | .change _ _ => prepend old new edit rest

/-- The hunks of a list of edits that cover whole texts. -/
def hunks (edits : List Edit) : List Hunk :=
  let edits := trimEnd edits
  let all := match edits with
    | .keep lines :: rest =>
      let cut := lines.length - contextLines
      hunksFrom cut cut (.keep (lines.drop cut) :: rest)
    | _ => hunksFrom 0 0 edits
  all.filter fun hunk ↦ hunk.edits.any Edit.isChange

/-! ### Their text -/

/-- A range of lines that starts behind `start` lines: the number of its first line and its
length, which is left out if it is one. An empty range is numbered by the line before it. -/
def rangeText (start length : Nat) : Bytes :=
  if length == 1 then decimal (start + 1)
  else decimal (if length == 0 then start else start + 1) ++ utf8 "," ++ decimal length

/-- Lines with a mark in front of each. -/
def marked (mark : UInt8) (lines : List Bytes) : Bytes :=
  lines.flatMap fun line ↦ mark :: line

/-- The lines of an edit: a blank marks a kept line, `-` a removed and `+` an added one. -/
def Edit.text : Edit → Bytes
  | .keep lines => marked 32 lines
  | .change removed added => marked 45 removed ++ marked 43 added

/-- The text of a hunk. -/
def Hunk.text (h : Hunk) : Bytes :=
  let size := fun (part : Edit → List Bytes) ↦ (h.edits.flatMap part).length
  utf8 "@@ -" ++ rangeText h.old (size Edit.old) ++ utf8 " +" ++ rangeText h.new (size Edit.new)
    ++ utf8 " @@\n" ++ h.edits.flatMap Edit.text

end Diff

end ColonGap
