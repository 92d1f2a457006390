import ColonGap.Script.Error
import ColonGap.Text.Utf8

/-!
# Reading a source character by character

A `Reader` stands at a character of the source, the *current* one. Moving on notes a malformed
character at the moment it becomes current. Of all errors only the first one is kept, because
the first one is what is reported.

The lexer works by measuring: pure functions on the list of remaining characters say how many
of them belong to a token, and `advance` then moves past that many.
-/

namespace ColonGap.Script

/-- A place in a source that is being read. -/
structure Reader where
  /-- The offset of the current character. -/
  offset : Nat
  /-- The characters from the current one on. -/
  rest : List Scalar
  /-- The bytes from the current character on. -/
  tail : Bytes
  /-- The first error so far. -/
  error : Option SyntaxError
deriving Inhabited

namespace Reader

/-- Keep an error, unless there is one already. -/
def note (r : Reader) (offset : Nat) (cause : Cause) : Reader :=
  match r.error with
  | some _ => r
  | none => { r with error := some ⟨offset, cause⟩ }

/-- The code point of the current character; `none` at the end. -/
def current? (r : Reader) : Option Nat :=
  r.rest.head?.map (·.code)

/-- Whether the current character is `code`. -/
def at? (r : Reader) (code : Nat) : Bool :=
  r.current? == some code

/-- A malformed current character is an error. -/
def check (r : Reader) : Reader :=
  match r.rest with
  | c :: _ => if c.isMalformed then r.note r.offset .malformedCharacter else r
  | [] => r

/-- Move to the next character; the end stays where it is. -/
def step (r : Reader) : Reader :=
  match r.rest with
  | c :: rest =>
    check { r with offset := r.offset + c.width, rest := rest, tail := r.tail.drop c.width }
  | [] => r

/-- Move past `n` characters. -/
def advance : Nat → Reader → Reader
  | 0, r => r
  | n + 1, r => advance n r.step

/-- The offset behind the current character. -/
def behind (r : Reader) : Nat :=
  match r.rest with
  | c :: _ => r.offset + c.width
  | [] => r.offset

/-- The start of a source. -/
def ofSource (source : Bytes) : Reader :=
  check { offset := 0, rest := Utf8.scalars source, tail := source, error := none }

end Reader

end ColonGap.Script
