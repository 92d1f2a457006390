import ColonGap.Text.Blank
import ColonGap.Text.Utf8

/-!
# What stands between tokens

Blanks, line breaks and comments separate tokens. Reading over them decides where a statement
may end without a semicolon: after a token that can end a statement, a line break stands for a
semicolon, and so does a block comment that holds a line break after any token.
-/

namespace ColonGap.Script

/-- Where a run of trivia stands. -/
inductive TriviaMode where
  /-- Outside a comment. -/
  | between
  /-- Inside a line comment. -/
  | line
  /-- At the star that opens a block comment. -/
  | opening
  /-- Inside a block comment: was the last character a star, and did a line break occur? -/
  | block (star lineBreak : Bool)
deriving DecidableEq

/-- A measured run of trivia. -/
structure Trivia where
  /-- The number of characters. -/
  count : Nat
  /-- Whether a line break that follows would still stand for a semicolon. -/
  insertSemicolon : Bool
  /-- Whether the run stands for a semicolon. -/
  implicitSemicolon : Bool
  /-- Whether the source ends inside a block comment. -/
  unterminated : Bool
deriving DecidableEq

namespace Trivia

/-- One character more. -/
def more (t : Trivia) : Trivia :=
  { t with count := t.count + 1 }

/-- Whether the first of the characters is `code`. -/
def startsWith (code : Nat) : List Scalar → Bool
  | c :: _ => c.code == code
  | [] => false

/-- The run of trivia that `rest` starts with. The next-line control U+0085 separates tokens
although it is no blank. -/
def measure : TriviaMode → (insert implicit : Bool) → List Scalar → Trivia
  | .block _ lineBreak, insert, implicit, [] =>
    ⟨0, insert && !lineBreak, implicit || lineBreak, true⟩
  | .opening, insert, implicit, [] => ⟨0, insert, implicit, true⟩
  | .line, insert, implicit, [] => ⟨0, insert, implicit, false⟩
  | .between, insert, implicit, [] => ⟨0, insert, implicit, false⟩
  | .between, insert, implicit, c :: rest =>
    if isLineBreak c.code then
      (measure .between false (implicit || insert) rest).more
    else if isBlank c.code || c.code == 0x85 then
      (measure .between insert implicit rest).more
    else if c.code == 47 && startsWith 47 rest then
      (measure .line insert implicit rest).more
    else if c.code == 47 && startsWith 42 rest then
      (measure .opening insert implicit rest).more
    else ⟨0, insert, implicit, false⟩
  | .line, insert, implicit, c :: rest =>
    if isLineBreak c.code then (measure .between false (implicit || insert) rest).more
    else (measure .line insert implicit rest).more
  | .opening, insert, implicit, _ :: rest =>
    (measure (.block false false) insert implicit rest).more
  | .block star lineBreak, insert, implicit, c :: rest =>
    if star && c.code == 47 then
      (measure .between (insert && !lineBreak) (implicit || lineBreak) rest).more
    else
      (measure (.block (c.code == 42) (lineBreak || isLineBreak c.code)) insert implicit
        rest).more

end Trivia

end ColonGap.Script
