import ColonGap.Script.Error

/-!
# Where an error is reported

A syntax error names a line and a column. Lines end at a line feed, a carriage return, both
together, or one of the separators U+2028 and U+2029. Columns count bytes.
-/

namespace ColonGap.Script

/-- The offsets behind the line ends of a text that starts at `offset`. -/
def lineStartsFrom (offset : Nat) : Bytes → List Nat
  | [] => []
  | 13 :: 10 :: rest => (offset + 2) :: lineStartsFrom (offset + 2) rest
  | 13 :: rest => (offset + 1) :: lineStartsFrom (offset + 1) rest
  | 10 :: rest => (offset + 1) :: lineStartsFrom (offset + 1) rest
  | 0xE2 :: 0x80 :: 0xA8 :: rest => (offset + 3) :: lineStartsFrom (offset + 3) rest
  | 0xE2 :: 0x80 :: 0xA9 :: rest => (offset + 3) :: lineStartsFrom (offset + 3) rest
  | _ :: rest => lineStartsFrom (offset + 1) rest

/-- The line and the column of an offset, both counted from one. -/
def locate (source : Bytes) (offset : Nat) : Nat × Nat :=
  let starts := (lineStartsFrom 0 source).filter (· ≤ offset)
  (starts.length + 1, offset - starts.getLast?.getD 0 + 1)

/-- The report of an error in the source of the given name. -/
def SyntaxError.report (e : SyntaxError) (name source : Bytes) : Bytes :=
  let (line, column) := locate source e.offset
  (if name.isEmpty then utf8 "(anonymous)" else name) ++ utf8 ": Line " ++ decimal line
    ++ utf8 ":" ++ decimal column ++ utf8 " " ++ e.cause.message

end ColonGap.Script
