import ColonGap.Yaml.Error

/-!
# The characters of a document

A document is UTF-8, or UTF-16 if it starts with the byte order mark of one of its two byte
orders. It may hold printing characters, tabs and line breaks, but no other control characters.

Documents are read in blocks, and a fault shows as soon as the block it stands in is needed. So
a fault is kept together with the number of the first character of its block.
-/

namespace ColonGap.Yaml

/-- How the characters of a document are written. -/
inductive Encoding where
  | octets
  /-- Units of two bytes, the low byte first or second. -/
  | units (lowFirst : Bool)
deriving DecidableEq, Repr

/-- The outcome of reading one character. -/
inductive Reading where
  | character (code width : Nat)
  /-- More bytes are needed; at the end of the document that is a problem. -/
  | incomplete (problem : Problem)
  | malformed (problem : Problem)
deriving DecidableEq, Repr

/-- The number of bytes that a lead byte announces. -/
def announcedWidth? (b : UInt8) : Option Nat :=
  if b < 0x80 then some 1
  else if b < 0xC0 then none
  else if b < 0xE0 then some 2
  else if b < 0xF0 then some 3
  else if b < 0xF8 then some 4
  else none

/-- The payload of a lead byte that announces a width. -/
def leadBits (width : Nat) (b : UInt8) : Nat :=
  if width == 1 then b.toNat
  else if width == 2 then b.toNat % 32
  else if width == 3 then b.toNat % 16
  else b.toNat % 8

/-- The least code point that needs a width. -/
def leastCode (width : Nat) : Nat :=
  if width == 2 then 0x80 else if width == 3 then 0x800 else if width == 4 then 0x10000 else 0

/-- Read one character of UTF-8. -/
def readOctets : Bytes → Reading
  | [] => .incomplete .incompleteOctets
  | b :: rest =>
    match announcedWidth? b with
    | none => .malformed .leadingOctet
    | some width =>
      let tail := rest.take (width - 1)
      if tail.length < width - 1 then .incomplete .incompleteOctets
      else if tail.any fun t ↦ t < 0x80 || 0xBF < t then .malformed .trailingOctet
      else
        let code := tail.foldl (fun v t ↦ v * 64 + t.toNat % 64) (leadBits width b)
        if code < leastCode width then .malformed .overlongOctets
        else if (0xD800 ≤ code && code ≤ 0xDFFF) || 0x10FFFF < code then
          .malformed .invalidCharacter
        else .character code width

/-- A unit of two bytes. -/
def unitOf (lowFirst : Bool) (a b : UInt8) : Nat :=
  if lowFirst then a.toNat + 256 * b.toNat else b.toNat + 256 * a.toNat

/-- Read one character of UTF-16. -/
def readUnits (lowFirst : Bool) : Bytes → Reading
  | a :: b :: rest =>
    let unit := unitOf lowFirst a b
    if 0xDC00 ≤ unit && unit ≤ 0xDFFF then .malformed .lowSurrogate
    else if 0xD800 ≤ unit && unit ≤ 0xDBFF then
      match rest with
      | c :: d :: _ =>
        let low := unitOf lowFirst c d
        if 0xDC00 ≤ low && low ≤ 0xDFFF then
          .character (0x10000 + (unit - 0xD800) * 1024 + (low - 0xDC00)) 4
        else .malformed .missingLowSurrogate
      | _ => .incomplete .incompletePair
    else .character unit 2
  | _ => .incomplete .incompleteUnit

/-- Whether a document may hold a character. -/
def isAllowed (c : Nat) : Bool :=
  c == 9 || c == 10 || c == 13 || (0x20 ≤ c && c ≤ 0x7E) || c == 0x85
    || (0xA0 ≤ c && c ≤ 0xD7FF) || (0xE000 ≤ c && c ≤ 0xFFFD) || (0x10000 ≤ c && c ≤ 0x10FFFF)

/-- Read one character. -/
def Encoding.read (e : Encoding) (s : Bytes) : Reading :=
  let reading := match e with
    | octets => readOctets s
    | units lowFirst => readUnits lowFirst s
  match reading with
  | .character code width =>
    if isAllowed code then .character code width else .malformed .controlCharacter
  | other => other

/-- The characters of a document up to the first fault, and that fault with the number of the
character from which on it shows. -/
structure Characters where
  items : List Nat
  /-- For each block without a fault the number of the first character behind it. -/
  blocks : List Nat
  fault : Option (Nat × Problem)
deriving DecidableEq, Repr

/-- The size of a block in bytes. -/
def blockSize : Nat := 512

/-- Read the characters of `rest`. The current block has `room` bytes left and starts with the
character number `start`; the next character has the number `index`. -/
def charactersFrom (e : Encoding) : (fuel : Nat) → (rest : Bytes) → (room start index : Nat) →
    Characters
  | 0, _, _, _, _ => ⟨[], [], none⟩
  | _, [], _, _, index => ⟨[], [index], none⟩
  | fuel + 1, rest, room, start, index =>
    match e.read (rest.take room) with
    | .character code width =>
      let others := charactersFrom e fuel (rest.drop width) (room - width) start (index + 1)
      { others with items := code :: others.items }
    | .incomplete problem =>
      if room < blockSize && room < rest.length then
        let others := charactersFrom e fuel rest blockSize index index
        { others with blocks := index :: others.blocks }
      else ⟨[], [index], some (index, problem)⟩
    | .malformed problem => ⟨[], [], some (start, problem)⟩

/-- The encoding of a document and the length of its byte order mark. -/
def encodingOf : Bytes → Encoding × Nat
  | 0xFF :: 0xFE :: _ => (.units true, 2)
  | 0xFE :: 0xFF :: _ => (.units false, 2)
  | 0xEF :: 0xBB :: 0xBF :: _ => (.octets, 3)
  | _ => (.octets, 0)

/-- The characters of a document. -/
def charactersOf (document : Bytes) : Characters :=
  let (encoding, skipped) := encodingOf document
  charactersFrom encoding (2 * document.length + 2) (document.drop skipped)
    (blockSize - skipped) 0 0

end ColonGap.Yaml
