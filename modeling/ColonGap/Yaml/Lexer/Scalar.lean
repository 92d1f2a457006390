import ColonGap.Yaml.Lexer.Fold

/-!
# Scalars

Plain scalars end at a colon, a comment or a line that is indented too little. Quoted scalars end
at their quote; in double quotes there are escapes. Block scalars are lines that are indented
alike, kept as they are or folded.
-/

namespace ColonGap.Yaml

namespace Lex

/-- Whether `---` or `...` stands at the start of a line here. -/
def atDocumentMark : Lex Bool := do
  let s ← get
  let marks := s.rest.take 3
  return s.mark.column == 0 && (marks == [45, 45, 45] || marks == [46, 46, 46])
    && endsWord (s.rest.getD 3 0)

/-! ### Plain scalars -/

/-- Whether a character ends a plain scalar that another character follows. -/
def endsPlain (flow : Bool) (c next : Nat) : Bool :=
  (c == 58 && endsWord next)
    || (flow && (c == 44 || c == 63 || c == 91 || c == 93 || c == 123 || c == 125))

/-- The length of the word at the start of a text. -/
def plainLength (flow : Bool) : List Nat → Nat
  | [] => 0
  | c :: rest =>
    if endsWord c || endsPlain flow c (rest.headD 0) then 0 else plainLength flow rest + 1

/-- The words of a plain scalar from here on. `pending` is the white space before the next word,
`text` what has been read and `stop` where it ends. -/
def plainWords (start : Mark) (limit : Int) : (fuel : Nat) → (pending : Fold) → (text : Bytes) →
    (stop : Mark) → Lex (Fold × Bytes × Mark)
  | 0, pending, text, stop => return (pending, text, stop)
  | fuel + 1, pending, text, stop => do
    need 4
    if (← atDocumentMark) || (← peek) == 35 then return (pending, text, stop)
    let s ← get
    let length := plainLength (0 < s.flowLevel) s.rest
    advanceBy 2 length
    let word := (s.rest.take length).flatMap Utf8.encode
    let (pending, text) := if length == 0 then (pending, text)
      else (Fold.empty, text ++ pending.text ++ word)
    let stop ← if length == 0 then pure stop else here
    let c ← peek
    if !(isSpacing c || endsLine c) then return (pending, text, stop)
    let pending ← fold (some limit) start (← rounds) pending
    let s ← get
    if s.flowLevel == 0 && (s.mark.column : Int) < limit then return (pending, text, stop)
    plainWords start limit fuel pending text stop

/-- Queue a plain scalar. -/
def plainScalar : Lex Unit := do
  saveCandidate
  allowKey false
  let start ← here
  let limit := (← get).indent + 1
  let (pending, text, stop) ← plainWords start limit (← rounds) .empty [] start
  push (.scalar text .plain) start stop
  if pending.first.isSome then allowKey true

/-! ### Quoted scalars -/

/-- What an escape of one character stands for. -/
def simpleEscape? : Nat → Option Nat
  | 48 => some 0
  | 97 => some 7
  | 98 => some 8
  | 116 => some 9
  | 9 => some 9
  | 110 => some 10
  | 118 => some 11
  | 102 => some 12
  | 114 => some 13
  | 101 => some 27
  | 32 => some 32
  | 34 => some 34
  | 39 => some 39
  | 92 => some 92
  | 78 => some 0x85
  | 95 => some 0xA0
  | 76 => some 0x2028
  | 80 => some 0x2029
  | _ => none

/-- The number of hexadecimal digits of an escape. -/
def escapeDigits? : Nat → Option Nat
  | 120 => some 2
  | 117 => some 4
  | 85 => some 8
  | _ => none

/-- The number that `n` hexadecimal digits stand for. -/
def hexNumber? (n : Nat) (characters : List Nat) : Option Nat :=
  (List.range n).foldl
    (fun value i ↦ value.bind fun v ↦ (hexValue? (characters.getD i 0)).map (v * 16 + ·)) (some 0)

/-- Move past an escape. -/
def escape (start : Mark) : Lex Bytes := do
  let c ← peekAt 1
  match simpleEscape? c, escapeDigits? c with
  | some code, _ =>
    passBy 2
    return Utf8.encode code
  | none, some digits =>
    passBy 2
    need digits
    match hexNumber? digits (← get).rest with
    | none => fail .missingHexDigit start
    | some code =>
      if (0xD800 ≤ code && code ≤ 0xDFFF) || 0x10FFFF < code then fail .escapedCharacter start
      passBy digits
      return Utf8.encode code
  | none, none => fail .unknownEscape start

/-- The text up to white space or the quote, and whether it ends with an escaped line end. -/
def quotedWord (single : Bool) (start : Mark) : (fuel : Nat) → (text : Bytes) →
    Lex (Bytes × Bool)
  | 0, text => return (text, false)
  | fuel + 1, text => do
    need 2
    let c ← peek
    let next ← peekAt 1
    if endsWord c then return (text, false)
    else if single && c == 39 && next == 39 then
      passBy 2
      quotedWord single start fuel (text ++ [39])
    else if (single && c == 39) || (!single && c == 34) then return (text, false)
    else if !single && c == 92 && endsLine next then
      need 3
      pass
      discard lineEnd
      return (text, true)
    else if !single && c == 92 then
      let escaped ← escape start
      quotedWord single start fuel (text ++ escaped)
    else
      pass
      quotedWord single start fuel (text ++ Utf8.encode c)

/-- The text of a quoted scalar up to its quote. -/
def quotedWords (single : Bool) (start : Mark) : (fuel : Nat) → (text : Bytes) → Lex Bytes
  | 0, text => return text
  | fuel + 1, text => do
    need 4
    if ← atDocumentMark then fail .documentInQuotes start
    if (← peek) == 0 then fail .endInQuotes start
    let (text, escaped) ← quotedWord single start (← rounds) text
    if (← peek) == (if single then 39 else 34) then return text
    let f ← fold none start (← rounds) (if escaped then ⟨[], some [], []⟩ else .empty)
    quotedWords single start fuel (text ++ f.text)

/-- Queue a quoted scalar. -/
def quotedScalar (single : Bool) : Lex Unit := do
  saveCandidate
  allowKey false
  let start ← here
  pass
  let text ← quotedWords single start (← rounds) []
  pass
  push (.scalar text .quoted) start (← here)

/-! ### Block scalars -/

/-- What happens to the line ends at the end of a block scalar. -/
inductive Chomping where
  | strip | clip | keep
deriving DecidableEq, Repr

/-- The chomping of a sign. -/
def chomping? (c : Nat) : Option Chomping :=
  if c == 43 then some .keep else if c == 45 then some .strip else none

/-- Move past an indentation indicator. -/
def indentation (start : Mark) : Lex Nat := do
  let c ← peek
  if isDigit c then
    if c == 48 then fail .zeroIndentation start
    advance
    return c - 48
  return 0

/-- Move past a chomping indicator. -/
def chomping : Lex (Option Chomping) := do
  let c ← peek
  match chomping? c with
  | some chomping =>
    advance
    return some chomping
  | none => return none

/-- Move past the indicators of a block scalar, which come in either order. -/
def blockIndicators (start : Mark) : Lex (Chomping × Nat) := do
  match ← chomping with
  | some first => return (first, ← indentation start)
  | none =>
    let increment ← indentation start
    if increment == 0 then return (.clip, 0)
    return ((← chomping).getD .clip, increment)

/-- Move past empty lines and the indentation of the next one. `indent` is zero as long as it is
not known, and `widest` is then the widest line so far. -/
def blockGap (start : Mark) : (fuel : Nat) → (indent widest : Nat) → (breaks : Bytes) →
    Lex (Nat × Bytes)
  | 0, indent, _, breaks => return (indent, breaks)
  | fuel + 1, indent, widest, breaks => do
    need 1
    let s ← get
    let blanks := (s.rest.takeWhile (· == 32)).length
    advanceBy 1 (if indent == 0 then blanks else min blanks (indent - s.mark.column))
    let column := (← here).column
    let widest := max widest column
    let c ← peek
    if (indent == 0 || column < indent) && c == 9 then fail .tabIndentation start
    if endsLine c then
      let text ← lineEnd
      blockGap start fuel indent widest (breaks ++ text)
    else if indent == 0 then
      return (max (max widest ((← get).indent + 1).toNat) 1, breaks)
    else return (indent, breaks)

/-- The lines of a block scalar. `text` is what has been read, `first` the line end of the last
line, `breaks` those of the empty lines behind it, and `spaced` says whether the last line starts
with a blank. -/
def blockLines (literal : Bool) (start : Mark) (indent : Nat) : (fuel : Nat) →
    (text first breaks : Bytes) → (spaced : Bool) → Lex (Bytes × Bytes × Bytes)
  | 0, text, first, breaks, _ => return (text, first, breaks)
  | fuel + 1, text, first, breaks, spaced => do
    let c ← peek
    if (← here).column != indent || c == 0 then return (text, first, breaks)
    let starts := isSpacing c
    let joined := if !literal && !spaced && !starts && first == [10] then
        (if breaks.isEmpty then [32] else [])
      else first
    let line ← takeWhile fun c ↦ !endsLineOrText c
    let text := text ++ joined ++ breaks ++ line
    need 2
    let first ← if endsLine (← peek) then lineEnd else pure []
    let (_, breaks) ← blockGap start (← rounds) indent 0 []
    blockLines literal start indent fuel text first breaks starts

/-- Queue a block scalar. -/
def blockScalar (literal : Bool) : Lex Unit := do
  dropCandidate
  allowKey true
  let start ← here
  advance
  let (chomping, increment) ← blockIndicators start
  skipSpacing
  if (← peek) == 35 then skipLine
  if !endsLineOrText (← peek) then fail .missingLineEnd start
  if endsLine (← peek) then discard lineEnd
  let around := (← get).indent
  let indent := if increment == 0 then 0 else (max around 0).toNat + increment
  let (indent, breaks) ← blockGap start (← rounds) indent 0 []
  let (text, first, breaks) ← blockLines literal start indent (← rounds) [] [] breaks false
  let text := match chomping with
    | .strip => text
    | .clip => text ++ first
    | .keep => text ++ first ++ breaks
  push (.scalar text .block) start (← here)

end Lex

end ColonGap.Yaml
