import ColonGap.Text.Graphic
import ColonGap.Text.Utf8

/-!
# Quoted texts

A text between double quotes in which every character prints: quotes and backslashes are
escaped, control characters take their letter or two hexadecimal digits, and other characters
that do not print take four or eight. A byte that is not UTF-8 is written as that byte, so the
quoted form determines the text.
-/

namespace ColonGap

/-- A hexadecimal digit in lower case. -/
def hexDigit (n : Nat) : UInt8 :=
  (if n < 10 then 48 + n else 87 + n).toUInt8

/-- The last `width` hexadecimal digits of a number. -/
def hexDigits : (width : Nat) → Nat → Bytes
  | 0, _ => []
  | width + 1, n => hexDigits width (n / 16) ++ [hexDigit (n % 16)]

namespace Quoted

/-- The escape letter of a control character that has one. -/
def controlLetter? : Nat → Option UInt8
  | 7 => some 97
  | 8 => some 98
  | 9 => some 116
  | 10 => some 110
  | 11 => some 118
  | 12 => some 102
  | 13 => some 114
  | _ => none

/-- The escape of a character that does not print. -/
def escapeCode (code : Nat) : Bytes :=
  match controlLetter? code with
  | some letter => [92, letter]
  | none =>
    if code < 0x20 || code == 0x7F then utf8 "\\x" ++ hexDigits 2 code
    else if code < 0x10000 then utf8 "\\u" ++ hexDigits 4 code
    else utf8 "\\U" ++ hexDigits 8 code

/-- The quoted form of one character; `lead` is its first byte. -/
def escapeScalar (lead : UInt8) (c : Scalar) : Bytes :=
  if c.isMalformed then utf8 "\\x" ++ hexDigits 2 lead.toNat
  else if c.code == 34 || c.code == 92 then [92, c.code.toUInt8]
  else if isGraphic c.code then Utf8.encode c.code
  else escapeCode c.code

/-- The quoted form of a text of which the first `skip` bytes are passed over. -/
def bodyAfter : Nat → Bytes → Bytes
  | _, [] => []
  | 0, b :: rest =>
    let c := Utf8.ofLead b rest
    escapeScalar b c ++ bodyAfter (c.width - 1) rest
  | skip + 1, _ :: rest => bodyAfter skip rest

end Quoted

/-- A text in double quotes. -/
def quoted (s : Bytes) : Bytes :=
  34 :: Quoted.bodyAfter 0 s ++ [34]

/-- A character in single quotes. -/
def quotedChar (code : Nat) : Bytes :=
  let body :=
    if code == 39 || code == 92 then 92 :: Utf8.encode code
    else if isGraphic code then Utf8.encode code
    else Quoted.escapeCode code
  39 :: body ++ [39]

end ColonGap
