import ColonGap.Gap
import ColonGap.Script.Location
import ColonGap.Script.Occurrence
import ColonGap.Script.Parser

/-!
# Source files

A source file is a named text with its constructs and a table of its line starts. Offsets are
turned into lines and columns by bisecting that table; columns count characters.
-/

namespace ColonGap

/-- A line and a column, both counted from one. -/
structure Position where
  line : Int
  column : Int
deriving DecidableEq, Repr, Inhabited

/-- A source file. -/
structure SourceFile where
  name : Bytes
  source : Bytes
  constructs : List Construct
  /-- The offsets at which lines start, ascending. -/
  lineStarts : Array Nat

namespace SourceFile

/-- The offsets behind the line feeds of a text that starts at `offset`. -/
def lineStartsFrom (offset : Nat) : Bytes → List Nat
  | [] => []
  | b :: rest =>
    if b == 10 then (offset + 1) :: lineStartsFrom (offset + 1) rest
    else lineStartsFrom (offset + 1) rest

/-- A source file without constructs. -/
def ofSource (name source : Bytes) : SourceFile :=
  { name := name, source := source, constructs := []
    lineStarts := (0 :: lineStartsFrom 0 source).toArray }

/-- The least number from `low` up to `high` for which an ascending test holds, by bisection in
`fuel` rounds; `high` if there is none below it. -/
def bisect (test : Nat → Bool) : (fuel low high : Nat) → Nat
  | 0, low, _ => low
  | fuel + 1, low, high =>
    if low < high then
      let middle := (low + high) / 2
      if test middle then bisect test fuel low middle else bisect test fuel (middle + 1) high
    else low

/-- An offset, moved into the source. -/
def clamp (f : SourceFile) (offset : Int) : Nat :=
  min offset.toNat f.source.length

/-- The position of an offset. Without a table of line starts everything is on the first
line. -/
def position (f : SourceFile) (offset : Int) : Position :=
  let o := f.clamp offset
  if f.lineStarts.isEmpty then ⟨1, Utf8.count (f.source.take o) + 1⟩
  else
    let n := f.lineStarts.size
    let line := bisect (fun i ↦ o < f.lineStarts.getD i 0) n 0 n - 1
    ⟨line + 1, Utf8.count (f.source.slice (f.lineStarts.getD line 0) o) + 1⟩

/-- The construct of an occurrence. A `key: value` entry whose colon is not found keeps its key
only. -/
def constructOf (source : Bytes) : Script.Occurrence → Construct
  | .keyed kind key value =>
    let limit := fun o ↦ min o source.length
    let start := limit (key.start.getD 0)
    let stop := limit value.stop
    let keyStop := limit key.stop
    match Gap.findColon source keyStop with
    | some (closed, colon) =>
      ⟨kind, start, stop,
        [⟨.key, start, closed⟩, ⟨.colon, closed, colon + 1⟩, ⟨.value, colon + 1, stop⟩]⟩
    | none => ⟨kind, start, stop, [⟨.key, start, keyStop⟩]⟩
  | .element span =>
    let start := min (span.start.getD 0) source.length
    let stop := min span.stop source.length
    ⟨.bindingElement, start, stop, [⟨.value, start, stop⟩]⟩

/-- The constructs of a parsed script. -/
def constructsOf (source : Bytes) (program : Script.Program) : List Construct :=
  (Script.occurrencesInStmts program).map (constructOf source)

/-- A source that cannot be parsed. -/
structure ParseError where
  name : Bytes
  source : Bytes
  error : Script.SyntaxError
deriving DecidableEq, Repr

/-- The wording of a parse error. -/
def ParseError.message (e : ParseError) : Bytes :=
  utf8 "parsing " ++ e.name ++ utf8 ": " ++ e.error.report e.name e.source

/-- Parse a source and list its constructs. -/
def parse (name source : Bytes) : Except ParseError SourceFile :=
  match Script.parse source with
  | .error error => .error ⟨name, source, error⟩
  | .ok program =>
    .ok { ofSource name source with constructs := constructsOf source program }

end SourceFile

end ColonGap
