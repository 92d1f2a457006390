import ColonGap.Text.Bytes

/-!
# The lines of a text

Texts are compared line by line. Each line carries its line feed, and a last line without one is
given one, so that the lines of a diff stay lines.
-/

namespace ColonGap

namespace Diff

/-- The lines of a text, each ended by a line feed. The empty text has none. -/
def lines : Bytes → List Bytes
  | [] => []
  | b :: rest =>
    if b = 10 then [10] :: lines rest
    else
      match lines rest with
      | [] => [[b, 10]]
      | line :: others => (b :: line) :: others

end Diff

end ColonGap
