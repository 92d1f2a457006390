import ColonGap.Text.Bytes

/-!
# Reading UTF-8

A text is read one character at a time. The reading is total: a byte that starts no well-formed
sequence stands for the replacement character and takes one byte, so every non-empty text has a
first character and the characters of a text cover it.

Well-formedness follows the usual table of lead bytes. Each lead byte fixes how many bytes
follow and which range the first of them lies in; the others are plain tails. That range is what
shuts out overlong forms, surrogates and values above `0x10FFFF`.
-/

namespace ColonGap

/-- The first character of a text: its code point, and how many bytes it takes. -/
structure Scalar where
  /-- The code point. -/
  code : Nat
  /-- The number of bytes it is written with. -/
  width : Nat
deriving DecidableEq, Repr

namespace Scalar

/-- The replacement character. -/
def replacement : Nat := 0xFFFD

/-- What a byte that starts no well-formed sequence reads as. -/
def malformed : Scalar := ⟨replacement, 1⟩

/-- Whether the character stands for a byte that starts no well-formed sequence. A replacement
character that is written out takes three bytes. -/
def isMalformed (c : Scalar) : Bool :=
  c.code == replacement && c.width == 1

end Scalar

namespace Utf8

/-- A tail byte: `0x80` to `0xBF`. -/
def isTail (b : UInt8) : Bool :=
  0x80 ≤ b && b ≤ 0xBF

/-- A sequence of two bytes. -/
def two (b : UInt8) : Bytes → Scalar
  | c :: _ => if isTail c then ⟨(b.toNat - 0xC0) * 64 + (c.toNat - 0x80), 2⟩ else .malformed
  | [] => .malformed

/-- A sequence of three bytes whose second lies between `low` and `high`. -/
def three (b low high : UInt8) : Bytes → Scalar
  | c :: d :: _ =>
    if low ≤ c && c ≤ high && isTail d then
      ⟨(b.toNat - 0xE0) * 4096 + (c.toNat - 0x80) * 64 + (d.toNat - 0x80), 3⟩
    else .malformed
  | _ => .malformed

/-- A sequence of four bytes whose second lies between `low` and `high`. -/
def four (b low high : UInt8) : Bytes → Scalar
  | c :: d :: e :: _ =>
    if low ≤ c && c ≤ high && isTail d && isTail e then
      ⟨(b.toNat - 0xF0) * 262144 + (c.toNat - 0x80) * 4096 + (d.toNat - 0x80) * 64
        + (e.toNat - 0x80), 4⟩
    else .malformed
  | _ => .malformed

/-- The character that starts with the byte `b` and goes on with `rest`. -/
def ofLead (b : UInt8) (rest : Bytes) : Scalar :=
  if b < 0x80 then ⟨b.toNat, 1⟩
  else if b < 0xC2 then .malformed
  else if b ≤ 0xDF then two b rest
  else if b == 0xE0 then three b 0xA0 0xBF rest
  else if b == 0xED then three b 0x80 0x9F rest
  else if b ≤ 0xEF then three b 0x80 0xBF rest
  else if b == 0xF0 then four b 0x90 0xBF rest
  else if b ≤ 0xF3 then four b 0x80 0xBF rest
  else if b == 0xF4 then four b 0x80 0x8F rest
  else .malformed

/-- The characters of a text of which the first `skip` bytes are passed over. -/
def scalarsAfter : Nat → Bytes → List Scalar
  | _, [] => []
  | 0, b :: rest => ofLead b rest :: scalarsAfter ((ofLead b rest).width - 1) rest
  | skip + 1, _ :: rest => scalarsAfter skip rest

/-- The characters of a text, one for each malformed byte. -/
def scalars (s : Bytes) : List Scalar :=
  scalarsAfter 0 s

/-- Passing over bytes is dropping them. -/
theorem scalarsAfter_eq (skip : Nat) (s : Bytes) :
    scalarsAfter skip s = scalars (s.drop skip) := by
  induction s generalizing skip with
  | nil => simp [scalars, scalarsAfter]
  | cons b rest ih =>
    cases skip with
    | zero => rfl
    | succ n => simpa [scalarsAfter] using ih n

/-- The number of characters of a text. -/
def count (s : Bytes) : Nat :=
  (scalars s).length

/-- Whether every byte of a text belongs to a well-formed sequence. -/
def isValid (s : Bytes) : Bool :=
  (scalars s).all fun c ↦ !c.isMalformed

/-- The bytes of a code point. A number that is no scalar value is written as the replacement
character. -/
def encode (code : Nat) : Bytes :=
  if code < 0x80 then [code.toUInt8]
  else if code < 0x800 then [(0xC0 + code / 64).toUInt8, (0x80 + code % 64).toUInt8]
  else if (0xD800 ≤ code && code ≤ 0xDFFF) || 0x10FFFF < code then [0xEF, 0xBF, 0xBD]
  else if code < 0x10000 then
    [(0xE0 + code / 4096).toUInt8, (0x80 + code / 64 % 64).toUInt8, (0x80 + code % 64).toUInt8]
  else
    [(0xF0 + code / 262144).toUInt8, (0x80 + code / 4096 % 64).toUInt8,
      (0x80 + code / 64 % 64).toUInt8, (0x80 + code % 64).toUInt8]

end Utf8

end ColonGap
