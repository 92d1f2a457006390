import ColonGap.Script.Reader
import ColonGap.Text.Identifier
import ColonGap.Script.Lexer.Word

/-!
# Numerals

Decimal, hexadecimal, octal and binary numerals, with underscores between digits and an `n` for
big integers. Reading a numeral moves through it digit by digit, because a misplaced underscore
is an error in the middle of the token. Whether the text then denotes a number is a second
question, answered by `Numeral.denotes` on the text alone.
-/

namespace ColonGap.Script

namespace Numeral

/-- Whether a character is a digit of a base. -/
def isDigit (base : Nat) (code : Nat) : Bool :=
  match hexValue? code with
  | some d => d < base
  | none => false

/-- Whether the current character is a digit of a base. -/
def atDigit (base : Nat) (r : Reader) : Bool :=
  match r.current? with
  | some code => isDigit base code
  | none => false

/-- Move past `n` digits and underscores; an underscore must be followed by a digit. -/
def digits (base : Nat) : Nat → Reader → Reader
  | 0, r => r
  | n + 1, r =>
    let underscore := r.at? 95
    let r := r.step
    digits base n (if underscore && !atDigit base r then r.note r.offset .doubledSeparator else r)

/-- Move past the digits of a base, and past underscores if they may stand here. -/
def mantissa (base : Nat) (separators : Bool) (r : Reader) : Reader :=
  digits base
    (r.rest.takeWhile fun c ↦ isDigit base c.code || (separators && c.code == 95)).length r

/-- Whether the current character is one of the two cases of a letter, given in lower case. -/
def atLetter (letter : Nat) (r : Reader) : Bool :=
  r.at? letter || r.at? (letter - 32)

/-- The end of a numeral: an `n` in either case, whatever follows it, or else no letter or
digit. -/
def finish (r : Reader) : Token × Reader :=
  if atLetter 110 r then (.number, r.step)
  else
    match r.current? with
    | some code =>
      if isIdentifierStart code || isAsciiDigit code then (.illegal, r) else (.number, r)
    | none => (.number, r)

/-- An optional exponent, and the end. -/
def exponent (r : Reader) : Token × Reader :=
  if atLetter 101 r then
    let r := r.step
    let r := if r.at? 45 || r.at? 43 then r.step else r
    if atDigit 10 r then finish (mantissa 10 true r.step) else (.illegal, r)
  else finish r

/-- An optional fraction, an optional exponent, and the end. -/
def fraction (r : Reader) : Token × Reader :=
  if r.at? 46 then exponent (mantissa 10 true r.step) else exponent r

/-- The digits behind a base letter, at which the reader stands. -/
def based (base : Nat) (r : Reader) : Token × Reader :=
  let r := r.step
  if atDigit base r then finish (mantissa base true r) else (.illegal, r)

/-- The numeral at the current digit. -/
def read (r : Reader) : Token × Reader :=
  if r.at? 48 then
    let r := r.step
    if atLetter 120 r then based 16 r
    else if atLetter 111 r then based 8 r
    else if atLetter 98 r then based 2 r
    else if r.at? 46 || atLetter 101 r then fraction r
    else finish (mantissa 8 false r)
  else fraction (mantissa 10 true r)

/-- The numeral whose leading point has been passed. -/
def readFraction (r : Reader) : Token × Reader :=
  exponent (mantissa 10 true r)

/-- The value of digits in a base, underscores left out. -/
def valueOf (base : Nat) (s : Bytes) : Nat :=
  s.foldl (fun v b ↦ match hexValue? b.toNat with | some d => v * base + d | none => v) 0

/-- Whether the text of a numeral denotes a number. A big integer is marked by a small `n` and takes
neither a fraction nor an exponent nor a leading zero. A number in a base other than ten fits in 63
bits, unless it is hexadecimal without underscores. No underscore follows a point. -/
def denotes (raw : Bytes) : Bool :=
  let letter := match raw with
    | 48 :: b :: _ => if b < 97 then b + 32 else b
    | _ => 0
  if raw.getLast? == some 78 then false
  else if raw.getLast? == some 110 then
    letter == 120 || letter == 111 || letter == 98
      || (!raw.any (fun b ↦ b == 46 || b == 101 || b == 69)
        && !(raw.head? == some 48 && raw.length > 2))
  else if letter == 120 then
    valueOf 16 (raw.drop 2) < 0x8000000000000000 || !raw.contains 95
  else if letter == 111 then valueOf 8 (raw.drop 2) < 0x8000000000000000
  else if letter == 98 then valueOf 2 (raw.drop 2) < 0x8000000000000000
  else (Bytes.indexOf? [46, 95] raw).isNone

end Numeral

end ColonGap.Script
