import ColonGap.Text.Category

/-!
# Characters of identifiers

An identifier of a script starts with a letter, `$`, `_` or a backslash (the start of an escape)
and goes on with those, digits and combining marks. Beyond ASCII the categories decide, with a
few exceptions that are listed one by one.
-/

namespace ColonGap

/-- An ASCII letter. -/
def isAsciiLetter (c : Nat) : Bool :=
  (97 ≤ c && c ≤ 122) || (65 ≤ c && c ≤ 90)

/-- An ASCII digit. -/
def isAsciiDigit (c : Nat) : Bool :=
  48 ≤ c && c ≤ 57

/-- The categories of characters that may start an identifier. -/
def startCategories : List Category :=
  Category.letters ++ [.letterNumber]

/-- The categories of characters that may stand inside an identifier and not start it. -/
def extendingCategories : List Category :=
  [.nonspacingMark, .spacingMark, .decimalNumber, .connector]

/-- Characters that may start an identifier although their category does not say so. -/
def extraStarts : Ranges :=
  [(0x1885, 0x1886), (0x2118, 0x2118), (0x212e, 0x212e), (0x309b, 0x309c)]

/-- Characters that may stand inside an identifier although their category does not say so. -/
def extraExtenders : Ranges :=
  [(0xb7, 0xb7), (0x387, 0x387), (0x1369, 0x1371), (0x19da, 0x19da), (0x200c, 0x200d),
    (0x30fb, 0x30fb), (0xff65, 0xff65)]

/-- Whether a character beyond ASCII may start an identifier. The vertical tilde is the one
letter that is taken by the grammar of patterns. -/
def isForeignStart (c : Nat) : Bool :=
  (Category.anyHolds startCategories c && c != 0x2e2f) || extraStarts.contains c

/-- Whether a character beyond ASCII may stand inside an identifier and perhaps not start it. -/
def isForeignExtender (c : Nat) : Bool :=
  Category.anyHolds extendingCategories c || extraExtenders.contains c

/-- Whether a character may start an identifier; a backslash starts an escape. -/
def isIdentifierStart (c : Nat) : Bool :=
  c == 36 || c == 95 || c == 92 || isAsciiLetter c || (0x80 ≤ c && isForeignStart c)

/-- Whether a character may stand inside an identifier; a backslash starts an escape. -/
def isIdentifierPart (c : Nat) : Bool :=
  isIdentifierStart c || isAsciiDigit c || (0x80 ≤ c && isForeignExtender c)

end ColonGap
