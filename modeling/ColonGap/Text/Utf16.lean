import ColonGap.Text.Utf8

/-!
# UTF-16 units

The value of a string literal is a sequence of UTF-16 units, in which surrogates may stand
alone. Names are kept in UTF-8 and only measured in units.
-/

namespace ColonGap

namespace Utf16

/-- The units of a code point. -/
def ofCode (code : Nat) : List UInt16 :=
  if code < 0x10000 then [code.toUInt16]
  else
    [(0xD800 + (code - 0x10000) / 0x400).toUInt16, (0xDC00 + (code - 0x10000) % 0x400).toUInt16]

/-- The units of a text. -/
def units (s : Bytes) : List UInt16 :=
  (Utf8.scalars s).flatMap fun c ↦ ofCode c.code

end Utf16

end ColonGap
