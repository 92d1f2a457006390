import ColonGap.Text.Blank
import ColonGap.Text.Utf8

/-!
# Trimming

A trimmed text has no spaces at either end. Spaces are those of the Unicode property
`White_Space`, so a text is read as characters and not as bytes.
-/

namespace ColonGap.Bytes

/-- The number of bytes of the spaces at the front of a list of characters. -/
def spaceWidth (cs : List Scalar) : Nat :=
  (cs.takeWhile fun c ↦ isSpace c.code).foldl (fun n c ↦ n + c.width) 0

/-- A text without the spaces at its front. -/
def trimLeft (s : Bytes) : Bytes :=
  s.drop (spaceWidth (Utf8.scalars s))

/-- A text without the spaces at its end. -/
def trimRight (s : Bytes) : Bytes :=
  s.take (s.length - spaceWidth (Utf8.scalars s).reverse)

/-- A text without the spaces at its ends. -/
def trim (s : Bytes) : Bytes :=
  s.trimLeft.trimRight

end ColonGap.Bytes
