import ColonGap.Text.Identifier
import ColonGap.Text.Utf8

/-!
# Words

An identifier or keyword, with `\u` escapes resolved. A measured word tells how many characters
were read, which name they spell, whether an escape occurred, and whether the escapes were
well-formed. After a malformed escape the count ends at the character that was wrong. A
character beyond ASCII whose low byte is a hexadecimal digit is taken for that digit while the
end of the word is sought, and makes the word malformed once it is found.
-/

namespace ColonGap.Script

/-- The value of a hexadecimal digit. -/
def hexValue? (code : Nat) : Option Nat :=
  if 48 ≤ code && code ≤ 57 then some (code - 48)
  else if 97 ≤ code && code ≤ 102 then some (code - 87)
  else if 65 ≤ code && code ≤ 70 then some (code - 55)
  else none

/-- The outcome of reading an escape: the code point and the number of characters behind the
backslash, or the number of characters before the one that was wrong. -/
inductive EscapeRun where
  /-- `ascii` tells whether all digits are ASCII. -/
  | code (code length : Nat) (ascii : Bool)
  | wrong (length : Nat)
deriving DecidableEq

namespace EscapeRun

/-- Hexadecimal digits up to a closing brace. A digit counts by its low byte. -/
def braced (value : Option Nat) (length : Nat) (ascii : Bool) : List Scalar → EscapeRun
  | [] => .wrong length
  | c :: rest =>
    if c.code == 125 then
      match value with
      | some v => .code v (length + 1) ascii
      | none => .wrong length
    else
      match hexValue? (c.code % 256) with
      | none => .wrong length
      | some d =>
        let v := value.getD 0 * 16 + d
        if 0x10FFFF < v then .wrong length
        else braced (some v) (length + 1) (ascii && c.code < 0x80) rest

/-- Exactly `left` more hexadecimal digits. -/
def fixed (value length : Nat) (ascii : Bool) : (left : Nat) → List Scalar → EscapeRun
  | 0, _ => .code value length ascii
  | _ + 1, [] => .wrong length
  | left + 1, c :: rest =>
    match hexValue? (c.code % 256) with
    | none => .wrong length
    | some d => fixed (value * 16 + d) (length + 1) (ascii && c.code < 0x80) left rest

/-- The escape behind a backslash: `u` and four digits, or `u` and digits in braces. -/
def measure : List Scalar → EscapeRun
  | [] => .wrong 0
  | c :: rest =>
    if c.code == 117 then
      match rest with
      | d :: rest' => if d.code == 123 then braced none 2 true rest' else fixed 0 1 true 4 rest
      | [] => .wrong 1
    else .wrong 0

end EscapeRun

/-- A measured word. -/
structure Word where
  count : Nat
  name : Bytes
  escaped : Bool
  wellFormed : Bool
deriving DecidableEq

namespace Word

/-- One character more, which adds nothing to the name. -/
def more (w : Word) : Word :=
  { w with count := w.count + 1 }

/-- One character more, which adds `code` to the name. -/
def moreCode (w : Word) (code : Nat) : Word :=
  { w with count := w.count + 1, name := Utf8.encode code ++ w.name }

/-- The word that starts at `rest`, of which `skip` characters are the remains of an escape.
`first` tells whether the next character would be the first of the name. -/
def measure : (skip : Nat) → (first : Bool) → List Scalar → Word
  | _, _, [] => ⟨0, [], false, true⟩
  | skip + 1, first, _ :: rest => (measure skip first rest).more
  | 0, first, c :: rest =>
    if c.code == 92 then
      match EscapeRun.measure rest with
      | .code code length ascii =>
        if code != 92 && (if first then isIdentifierStart code else isIdentifierPart code) then
          let w := measure length false rest
          { w.moreCode code with escaped := true, wellFormed := w.wellFormed && ascii }
        else ⟨length, [], true, false⟩
      | .wrong length => ⟨length + 1, [], true, false⟩
    else if isIdentifierPart c.code then (measure 0 false rest).moreCode c.code
    else ⟨0, [], false, true⟩

end Word

end ColonGap.Script
