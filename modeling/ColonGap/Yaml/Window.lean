import ColonGap.Yaml.Characters

/-!
# The window on a document

The lexer sees a document through a window. The window starts where the lexer stood when it last
ran out of characters, and reaches to the end of the last block that has been read. When more
characters are asked for than it holds, it is moved up to the lexer and blocks are read until
there are enough; behind the end of the document stand zeros, of which one is read at a time.

The first character of the window matters: as long as it is a byte order mark, the lexer takes
the first character of each line for one.
-/

namespace ColonGap.Yaml

/-- The part of a document that has been read. -/
structure Window where
  /-- The first character; zero if there is none. -/
  head : Nat
  /-- The number of the first character behind the window. -/
  stop : Nat
  /-- The ends of the blocks that have not been read. -/
  blocks : List Nat
  /-- The fault behind these blocks, with the number of the character from which on it shows. -/
  fault : Option (Nat × Problem)
deriving DecidableEq, Repr, Inhabited

namespace Window

/-- The window before anything has been read. -/
def ofCharacters (characters : Characters) : Window :=
  ⟨0, 0, characters.blocks, characters.fault⟩

/-- The character U+FEFF. -/
def byteOrderMark : Nat := 0xFEFF

/-- Whether the window starts with a byte order mark. -/
def startsWithMark (w : Window) : Bool :=
  w.head == byteOrderMark

/-- Read blocks until the window reaches the character `wanted`, or one zero if there are no more
blocks. -/
def load (wanted : Nat) : (stop : Nat) → (blocks : List Nat) → Nat × List Nat
  | stop, [] => (stop + 1, [])
  | _, stop :: blocks => if wanted ≤ stop then (stop, blocks) else load wanted stop blocks

/-- The window moved up to a character and extended to the character `wanted`. -/
def moved (w : Window) (head wanted : Nat) : Window :=
  let (stop, blocks) := load wanted w.stop w.blocks
  { w with head := head, stop := stop, blocks := blocks }

/-- Ask for the characters before the one with the number `wanted`; `head` is the current
character. -/
def request (w : Window) (head wanted : Nat) : Except Problem Window :=
  if wanted ≤ w.stop then .ok w
  else
    match w.fault with
    | some (limit, problem) => if limit < wanted then .error problem else .ok (w.moved head wanted)
    | none => .ok (w.moved head wanted)

end Window

end ColonGap.Yaml
