import ColonGap.Diff.Hunk
import ColonGap.Diff.Lines

/-!
# Unified diffs

The unified diff of two texts names the file twice and then lists the hunks that turn the lines
of the old text into those of the new one. Texts with the same lines have an empty diff.
-/

namespace ColonGap

namespace Diff

/-- The two lines that name the compared file. -/
def header (name : Bytes) : Bytes :=
  utf8 "--- a/" ++ name ++ utf8 "\n+++ b/" ++ name ++ utf8 "\n"

/-- The unified diff of two versions of a file. -/
def unified (name old new : Bytes) : Bytes :=
  if old == new then []
  else
    match hunks (edits (lines old) (lines new)) with
    | [] => []
    | all => header name ++ all.flatMap Hunk.text

end Diff

end ColonGap
