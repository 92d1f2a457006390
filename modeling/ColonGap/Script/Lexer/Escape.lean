import ColonGap.Script.Error
import ColonGap.Script.Lexer.Word
import ColonGap.Text.Utf16

/-!
# The value of a string or template text

The text between the quotes, read into UTF-16 units: escapes are resolved, an escaped line break
vanishes, and a malformed escape is an error. Templates are strict and refuse octal escapes.
-/

namespace ColonGap.Script

namespace Escape

/-- The outcome of one escape: the units it stands for and the text behind it. -/
abbrev Resolved := Except Cause (List UInt16 × Bytes)

/-- The value of the first `size` bytes as hexadecimal digits. -/
def hexNumber? : (size : Nat) → Bytes → Nat → Option Nat
  | 0, _, value => some value
  | _ + 1, [], _ => none
  | size + 1, b :: rest, value =>
    match hexValue? b.toNat with
    | some d => hexNumber? size rest (value * 16 + d)
    | none => none

/-- An escape of exactly `size` hexadecimal digits behind `letter`. -/
def fixed (letter : UInt8) (size : Nat) (rest : Bytes) : Resolved :=
  if rest.length < size then .error (.shortEscape letter rest size)
  else
    match hexNumber? size rest 0 with
    | some value => .ok (Utf16.ofCode value, rest.drop size)
    | none => .error (.badEscape letter (rest.take size))

/-- Hexadecimal digits up to a closing brace; `all` is the text behind the opening brace and
`size` the number of digits read. -/
def braced (all : Bytes) (size value : Nat) : Bytes → Resolved
  | [] => .error (.unterminatedEscape all)
  | b :: rest =>
    if b == 125 then
      if size == 0 then .error (.emptyEscape 117) else .ok (Utf16.ofCode value, rest)
    else
      match hexValue? b.toNat with
      | none => .error (.badEscape 117 (all.take (size + 1)))
      | some d =>
        if 0x10FFFF < value * 16 + d then .error (.undefinedCodePoint (all.take (size + 1)))
        else braced all (size + 1) (value * 16 + d) rest

/-- At most `left` more octal digits. -/
def octal (value : Nat) : (left : Nat) → Bytes → Nat × Bytes
  | left + 1, b :: rest =>
    if 48 ≤ b && b ≤ 55 then octal (value * 8 + (b.toNat - 48)) left rest else (value, b :: rest)
  | _, rest => (value, rest)

/-- Whether a text starts with an octal digit. -/
def startsOctal : Bytes → Bool
  | b :: _ => 48 ≤ b && b ≤ 55
  | [] => false

/-- The escape behind a backslash. -/
def resolve (strict : Bool) : Bytes → Resolved
  | [] => .ok ([], [])
  | b :: rest =>
    if 0x80 ≤ b then
      let c := Utf8.ofLead b rest
      let rest := rest.drop (c.width - 1)
      if c.code == 0x2028 || c.code == 0x2029 then .ok ([], rest)
      else .ok (Utf16.ofCode c.code, rest)
    else
      match b with
      | 98 => .ok ([8], rest)
      | 102 => .ok ([12], rest)
      | 110 => .ok ([10], rest)
      | 114 => .ok ([13], rest)
      | 116 => .ok ([9], rest)
      | 118 => .ok ([11], rest)
      | 120 => fixed 120 2 rest
      | 117 =>
        match rest with
        | 123 :: digits => braced digits 0 0 digits
        | _ => fixed 117 4 rest
      | 10 => .ok ([], rest)
      | 13 =>
        match rest with
        | 10 :: rest' => .ok ([], rest')
        | _ => .ok ([], rest)
      | _ =>
        if 48 ≤ b && b ≤ 55 && (b != 48 || startsOctal rest) then
          if strict then .error .octalEscape
          else
            let (value, rest) := octal (b.toNat - 48) 2 rest
            .ok (Utf16.ofCode value, rest)
        else if b == 48 then .ok ([0], rest)
        else .ok ([b.toUInt16], rest)

/-- The units of a text, read with `fuel` steps at most. -/
def unitsWith (strict : Bool) : (fuel : Nat) → Bytes → Except Cause (List UInt16)
  | 0, _ => .ok []
  | _ + 1, [] => .ok []
  | fuel + 1, b :: rest =>
    if b == 92 then
      match resolve strict rest with
      | .error cause => .error cause
      | .ok (units, rest) => (unitsWith strict fuel rest).map (units ++ ·)
    else
      let c := Utf8.ofLead b rest
      (unitsWith strict fuel (rest.drop (c.width - 1))).map (Utf16.ofCode c.code ++ ·)

/-- The units that the text between two quotes stands for. -/
def units (strict : Bool) (s : Bytes) : Except Cause (List UInt16) :=
  unitsWith strict s.length s

/-- A text with each carriage return, alone or before a line feed, turned into a line feed. -/
def normalizeBreaks : Bytes → Bytes
  | [] => []
  | 13 :: 10 :: rest => 10 :: normalizeBreaks rest
  | 13 :: rest => 10 :: normalizeBreaks rest
  | b :: rest => b :: normalizeBreaks rest

end Escape

end ColonGap.Script
