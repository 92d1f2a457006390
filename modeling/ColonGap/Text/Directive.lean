import ColonGap.Text.Utf8

/-!
# Directives without operands

In a message that serves as a format, a percent sign starts a directive: flags, a width, a
precision, perhaps the number of an operand in square brackets, and a verb. `Directive.unfilled`
is what such a message becomes when there is no operand to fill in. Each directive leaves a note
of what is missing, and `%%` leaves one percent sign.
-/

namespace ColonGap

/-- A directive that is being read. -/
structure Directive where
  /-- The text behind what has been read. -/
  rest : Bytes
  /-- The notes left so far. -/
  notes : Bytes
  /-- Whether no operand has been asked for by number, which can only fail. -/
  inOrder : Bool
  /-- Whether a well-formed operand number was read last. -/
  numbered : Bool

namespace Directive

/-- Whether a byte is a decimal digit. -/
def isDigit (b : UInt8) : Bool :=
  48 ≤ b && b ≤ 57

/-- Pass over an operand number in square brackets. If it is not one, the bracket alone is passed
over when it is never closed, and everything up to the closing bracket otherwise. -/
def number (d : Directive) : Directive :=
  match d.rest with
  | 91 :: rest =>
    match Bytes.cut? 93 rest with
    | some (inner, after) =>
      { d with
        rest := after, inOrder := false, numbered := !inner.isEmpty && inner.all isDigit }
    | none => { d with rest := rest, inOrder := false, numbered := false }
  | _ => { d with numbered := false }

/-- Pass over a width. -/
def width (d : Directive) : Directive :=
  match d.rest with
  | 42 :: rest =>
    { d with rest := rest, notes := d.notes ++ utf8 "%!(BADWIDTH)", numbered := false }
  | b :: _ =>
    { d with
      rest := d.rest.dropWhile isDigit, inOrder := d.inOrder && !(d.numbered && isDigit b) }
  | [] => d

/-- Pass over a precision. -/
def precision (d : Directive) : Directive :=
  match d.rest with
  | 46 :: rest =>
    let d := number { d with rest := rest, inOrder := d.inOrder && !d.numbered }
    match d.rest with
    | 42 :: rest =>
      { d with rest := rest, notes := d.notes ++ utf8 "%!(BADPREC)", numbered := false }
    | _ => { d with rest := d.rest.dropWhile isDigit }
  | _ => d

/-- What is left of a directive whose verb comes next, and the text behind the verb. -/
def verb (d : Directive) : Bytes × Bytes :=
  match d.rest with
  | [] => (d.notes ++ utf8 "%!(NOVERB)", [])
  | b :: rest =>
    let c := Utf8.ofLead b rest
    let note :=
      if b == 37 then [37]
      else utf8 "%!" ++ Utf8.encode c.code
        ++ (if d.inOrder then utf8 "(MISSING)" else utf8 "(BADINDEX)")
    (d.notes ++ note, rest.drop (c.width - 1))

/-- Whether a byte is a flag of a directive: one of `#`, `0`, `+`, `-` and the space. -/
def isFlag (b : UInt8) : Bool :=
  [35, 48, 43, 45, 32].contains b

/-- What is left of the directive behind a percent sign, and the text behind it. -/
def read (s : Bytes) : Bytes × Bytes :=
  let d := precision (width (number ⟨s.dropWhile isFlag, [], true, false⟩))
  verb (if d.numbered then d else number d)

/-- `unfilled` with at most `fuel` steps. -/
def unfilledWith : (fuel : Nat) → Bytes → Bytes
  | 0, s => s
  | _ + 1, [] => []
  | fuel + 1, b :: rest =>
    if b == 37 then
      let (notes, rest) := read rest
      notes ++ unfilledWith fuel rest
    else b :: unfilledWith fuel rest

/-- A message with its directives read and nothing filled in. -/
def unfilled (message : Bytes) : Bytes :=
  unfilledWith message.length message

end Directive

end ColonGap
