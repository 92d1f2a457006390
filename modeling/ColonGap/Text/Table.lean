import ColonGap.Text.Utf8

/-!
# Tables

A table is a text whose cells end at tabs. Rendering it pads each cell so that the cells below
one another start in the same column.

* A line's last cell ends with the line and is not padded.
* A column is as wide as the widest cell of a *run*: the neighbouring lines that all have that
  cell. A line without it starts a new run, and so does a form feed, which otherwise ends a line
  like a line feed does.
* The byte `0xFF`, which no UTF-8 text holds, opens and closes a stretch in which tabs and line
  ends are ordinary characters. It is written but takes no width.
-/

namespace ColonGap

namespace Table

/-- The number of blanks between the widest cell of a column and the next column. -/
def padding : Nat := 2

/-- The byte around a stretch without tabs and line ends. -/
def escapeMark : UInt8 := 0xFF

/-- Whether a byte ends a line. -/
def endsLine (b : UInt8) : Bool :=
  b == 10 || b == 12

/-- Whether a byte ends a cell. -/
def endsCell (b : UInt8) : Bool :=
  b == 9 || b == 11 || endsLine b

/-- The cells of a text, each with the byte that ends it; the last cell ends with the text. -/
def cells : (escaped : Bool) → Bytes → List (Bytes × Option UInt8)
  | _, [] => [([], none)]
  | escaped, b :: rest =>
    if !escaped && endsCell b then ([], some b) :: cells false rest
    else
      match cells (if b == escapeMark then !escaped else escaped) rest with
      | [] => [([b], none)]
      | (cell, stop) :: items => (b :: cell, stop) :: items

/-- A line: its padded cells, its last cell and the byte that ends it. -/
structure Line where
  padded : List Bytes
  last : Bytes
  stop : Option UInt8

/-- The lines that cells make up. -/
def lines : List (Bytes × Option UInt8) → List Line
  | [] => []
  | (cell, stop) :: items =>
    if stop.all endsLine then ⟨[], cell, stop⟩ :: lines items
    else
      match lines items with
      | [] => [⟨[cell], [], none⟩]
      | line :: rest => { line with padded := cell :: line.padded } :: rest

/-- The lines up to each form feed. -/
def sections : List Line → List (List Line)
  | [] => []
  | line :: rest =>
    if line.stop == some 12 then [line] :: sections rest
    else
      match sections rest with
      | [] => [[line]]
      | part :: parts => (line :: part) :: parts

/-- The width of a cell in characters. -/
def width (cell : Bytes) : Nat :=
  Utf8.count cell - cell.count escapeMark

/-- The widest cell of the run that a column starts with. -/
def runWidth : List (Option Nat) → Nat
  | some w :: rest => max w (runWidth rest)
  | _ => 0

/-- The width of the run that each cell of a column belongs to; `above` is the widest cell of
the run so far. -/
def runWidths (above : Nat) : List (Option Nat) → List Nat
  | [] => []
  | none :: rest => 0 :: runWidths 0 rest
  | some w :: rest => max (max above w) (runWidth rest) :: runWidths (max above w) rest

/-- The cells of a line, padded to the given widths. -/
def paddedText (widths : List Nat) (items : List Bytes) : Bytes :=
  (items.zip widths).flatMap fun (cell, w) ↦
    cell ++ List.replicate (w + padding - width cell) 32

/-- A line with its cells in their columns. -/
def renderLine (line : Line) (widths : List Nat) : Bytes :=
  paddedText widths line.padded ++ line.last ++ (if line.stop.isSome then [10] else [])

/-- The lines of a section with their cells in columns. -/
def renderSection (part : List Line) : Bytes :=
  let columns := (part.map (·.padded.length)).foldl max 0
  let widths := (List.range columns).map fun j ↦
    runWidths 0 (part.map fun line ↦ line.padded[j]?.map width)
  (part.zipIdx.map fun (line, i) ↦
    renderLine line (widths.map fun column ↦ column.getD i 0)).flatten

/-- A text with its cells in columns. -/
def render (s : Bytes) : Bytes :=
  (sections (lines (cells false s))).flatMap renderSection

end Table

end ColonGap
