import ColonGap.Yaml.Lexer.Basic

/-!
# Directives, anchors and tags

A tag is written in full between `!<` and `>`, or as a handle and a suffix. A handle stands for
the start of a tag, which a directive may set.
-/

namespace ColonGap.Yaml

namespace Lex

/-! ### Tags -/

/-- The first byte of a character that is written out in escapes: how many bytes it has. -/
def escapedWidth? (b : Nat) : Option Nat :=
  if b < 0x80 then some 1
  else if b < 0xC0 then none
  else if b < 0xE0 then some 2
  else if b < 0xF0 then some 3
  else if b < 0xF8 then some 4
  else none

/-- Move past an escaped byte. -/
def escapedByte (start : Mark) : Lex Nat := do
  need 3
  let s ← get
  if s.rest.headD 0 != 37 then fail .missingTagEscape start
  match hexValue? (s.rest.getD 1 0), hexValue? (s.rest.getD 2 0) with
  | some high, some low =>
    passBy 3
    return high * 16 + low
  | _, _ => fail .missingTagEscape start

/-- Move past the escaped bytes behind the first one of a character. -/
def escapedTail (start : Mark) : (count : Nat) → Lex Bytes
  | 0 => return []
  | count + 1 => do
    let b ← escapedByte start
    if b < 0x80 || 0xBF < b then fail .escapedTrailingOctet start
    return b.toUInt8 :: (← escapedTail start count)

/-- Move past the escapes of one character. -/
def escapedCharacter (start : Mark) : Lex Bytes := do
  let b ← escapedByte start
  match escapedWidth? b with
  | some width => return b.toUInt8 :: (← escapedTail start (width - 1))
  | none => fail .escapedLeadingOctet start

/-- A character that may stand in a tag. -/
def isTagCharacter (c : Nat) : Bool :=
  isNameCharacter c || [59, 47, 63, 58, 64, 38, 61, 43, 36, 44, 46, 33, 126, 42, 39, 40, 41, 91,
    93, 37].contains c

/-- Move past the characters of a tag. -/
def tagCharacters (start : Mark) : (fuel : Nat) → Lex Bytes
  | 0 => return []
  | fuel + 1 => do
    let c ← peek
    if c == 37 then
      let escaped ← escapedCharacter start
      need 1
      return escaped ++ (← tagCharacters start fuel)
    else if isTagCharacter c then
      advance
      return c.toUInt8 :: (← tagCharacters start fuel)
    else return []

/-- The text of a tag that starts with `head`, of which the mark is left out. -/
def tagText (head : Bytes) (start : Mark) : Lex Bytes := do
  let text ← tagCharacters start (← rounds)
  if head.isEmpty && text.isEmpty then fail .missingTagText start
  return head.drop 1 ++ text

/-- Move past a handle, or what might be one. -/
def tagHandle (directive : Bool) (start : Mark) : Lex Bytes := do
  if (← peek) != 33 then fail .missingTagMark start
  advance
  let name ← takeWhile isNameCharacter
  if (← peek) == 33 then
    advance
    return 33 :: name ++ [33]
  if directive && !name.isEmpty then fail .missingTagMark start
  return 33 :: name

/-- The handle and the suffix of a tag. -/
def tagParts (start : Mark) : Lex (Bytes × Bytes) := do
  need 2
  if (← peekAt 1) == 60 then
    passBy 2
    need 1
    let text ← tagText [] start
    if (← peek) != 62 then fail .missingTagEnd start
    advance
    return ([], text)
  let handle ← tagHandle false start
  if 1 < handle.length && handle.getLast? == some 33 then return (handle, ← tagText [] start)
  let suffix ← tagText handle start
  return if suffix.isEmpty then ([], handle) else ([33], suffix)

/-- Queue a tag. -/
def tag : Lex Unit := do
  saveCandidate
  allowKey false
  let start ← here
  let (handle, suffix) ← tagParts start
  if !endsWord (← peek) then fail .missingBlankOrLineEnd start
  push (.tag handle suffix) start (← here)

/-! ### Anchors -/

/-- A character that may follow an anchor. -/
def endsAnchor (c : Nat) : Bool :=
  endsWord c || [63, 58, 44, 93, 125, 37, 64, 96].contains c

/-- Queue an anchor or a reference to one. -/
def anchor (kind : Bytes → TokenKind) : Lex Unit := do
  saveCandidate
  allowKey false
  let start ← here
  advance
  let name ← takeWhile isNameCharacter
  let stop ← here
  if name.isEmpty || !endsAnchor (← peek) then fail .anchorEnd start
  push (kind name) start stop

/-! ### Directives -/

/-- Move past a number of at most two digits. -/
def versionNumber (start : Mark) : Lex Nat := do
  let digits := (← get).rest.takeWhile isDigit
  if 2 < digits.length then
    advanceBy 1 2
    fail .longVersion start
  advanceBy 1 digits.length
  if digits.isEmpty then fail .missingVersion start
  return digits.foldl (fun v c ↦ v * 10 + (c - 48)) 0

/-- The rest of a directive that names a version. -/
def versionDirective (start : Mark) : Lex TokenKind := do
  skipSpacing
  let major ← versionNumber start
  if (← peek) != 46 then fail .missingVersionPoint start
  advance
  return .version major (← versionNumber start)

/-- The rest of a directive that names a handle of tags. -/
def handleDirective (start : Mark) : Lex TokenKind := do
  skipSpacing
  let handle ← tagHandle true start
  if !isSpacing (← peek) then fail .missingBlank start
  skipSpacing
  let text ← tagText [] start
  if !endsWord (← peek) then fail .missingBlankOrLineEnd start
  return .tagHandle handle text

/-- Queue a directive. -/
def directive : Lex Unit := do
  closeBlocks (-1) (← here)
  dropCandidate
  allowKey false
  let start ← here
  advance
  let name ← takeWhile isNameCharacter
  if name.isEmpty then fail .missingDirectiveName start
  if !endsWord (← peek) then fail .directiveNameEnd start
  let kind ← if name == utf8 "YAML" then versionDirective start
    else if name == utf8 "TAG" then handleDirective start
    else fail .unknownDirective start
  push kind start (← here)
  skipSpacing
  if (← peek) == 35 then skipLine
  if !endsLineOrText (← peek) then fail .missingLineEnd start
  if endsLine (← peek) then discard lineEnd

end Lex

end ColonGap.Yaml
