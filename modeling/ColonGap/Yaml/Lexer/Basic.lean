import ColonGap.Yaml.Token
import ColonGap.Yaml.Window

/-!
# The state of the lexer

The lexer reads characters one by one and queues tokens. A scalar may turn out to be the key of
a mapping only when the colon behind it is found; until then it is a *candidate*, and the tokens
that open the mapping are put into the queue before it later.

* In block context, outside all brackets, the column of a token opens and closes collections;
  `indent` is the column of the innermost open one.
* In flow context, inside brackets, indentation means nothing.

There is at most one candidate for each level of brackets, and it must stand on one line. A token
is not taken from the queue while it is *awaited*: each awaited token waits for the candidate of
one level. It is no longer awaited when that candidate is dropped or becomes a key, and an opening
bracket also when its closing bracket comes and no candidate was saved between them.
-/

namespace ColonGap.Yaml

/-! ### Characters -/

/-- A blank or a tab. -/
def isSpacing (c : Nat) : Bool :=
  c == 32 || c == 9

/-- A character that ends a line. -/
def endsLine (c : Nat) : Bool :=
  c == 10 || c == 13 || c == 0x85 || c == 0x2028 || c == 0x2029

/-- A line end or the end of the document, which reads as zero. -/
def endsLineOrText (c : Nat) : Bool :=
  c == 0 || endsLine c

/-- A spacing character, a line end or the end of the document. -/
def endsWord (c : Nat) : Bool :=
  isSpacing c || endsLineOrText c

/-- A decimal digit. -/
def isDigit (c : Nat) : Bool :=
  48 ≤ c && c ≤ 57

/-- A letter, a digit, `_` or `-`. -/
def isNameCharacter (c : Nat) : Bool :=
  isDigit c || (65 ≤ c && c ≤ 90) || (97 ≤ c && c ≤ 122) || c == 95 || c == 45

/-- The value of a hexadecimal digit. -/
def hexValue? (c : Nat) : Option Nat :=
  if isDigit c then some (c - 48)
  else if 65 ≤ c && c ≤ 70 then some (c - 55)
  else if 97 ≤ c && c ≤ 102 then some (c - 87)
  else none

/-! ### State -/

/-- The last token of a level that may turn out to be a key. -/
structure Candidate where
  /-- Whether it still may. -/
  isOpen : Bool
  /-- Whether it stands where only a key can stand. -/
  required : Bool
  /-- The number of the token in the document. -/
  token : Nat
  mark : Mark
deriving DecidableEq, Repr, Inhabited

/-- The state of the lexer. -/
structure Lexer where
  /-- The number of characters of the document. -/
  size : Nat
  /-- The characters not yet read. -/
  rest : List Nat
  window : Window
  mark : Mark
  /-- Whether a line end has been passed since the last character that is no spacing. -/
  newLine : Bool
  /-- The number of open brackets. -/
  flowLevel : Nat
  /-- The column of the innermost block collection; -1 outside all. -/
  indent : Int
  /-- The columns of the collections around it. -/
  indents : List Int
  /-- Whether a candidate may start here. -/
  keyAllowed : Bool
  /-- The candidate of the innermost level of brackets. -/
  candidate : Candidate
  /-- The candidates of the levels around it, innermost first. -/
  outer : List Candidate
  /-- The numbers of the awaited tokens, each with the level whose candidate it waits for. -/
  awaited : List (Nat × Nat)
  /-- The tokens not yet taken. -/
  queue : List Token
  /-- The number of tokens taken. -/
  taken : Nat
  started : Bool
  /-- Whether the first token of the queue is known to be the next one. -/
  settled : Bool
deriving Inhabited

/-- The lexer at the start of a document. -/
def Lexer.ofDocument (document : Bytes) : Lexer :=
  let characters := charactersOf document
  { size := characters.items.length, rest := characters.items
    window := .ofCharacters characters, mark := ⟨0, 0, 0⟩, newLine := false
    flowLevel := 0, indent := -1, indents := [], keyAllowed := true
    candidate := ⟨false, false, 0, ⟨0, 0, 0⟩⟩, outer := [], awaited := []
    queue := [], taken := 0, started := false, settled := false }

/-- A step of the lexer. -/
abbrev Lex := StateT Lexer (Except Fault)

namespace Lex

/-- A problem inside the construct that starts at a mark. -/
def fail {α : Type} (problem : Problem) (around : Mark) : Lex α := do
  throw (.token problem around (← get).mark)

/-- Make sure that the next `n` characters can be read. -/
def need (n : Nat) : Lex Unit := do
  let s ← get
  match s.window.request (s.rest.headD 0) (s.mark.index + n) with
  | .ok window => set { s with window := window }
  | .error problem => throw (.encoding problem)

/-- Look at the characters for which a test holds and at the one behind them, at most `reach` in
all. -/
def glance (reach : Nat) (test : Nat → Bool) : Lex (List Nat) := do
  let rest := (← get).rest
  let n := min reach ((rest.takeWhile test).length + 1)
  need n
  return rest.take n

/-- The character `n` places ahead; zero behind the end. -/
def peekAt (n : Nat) : Lex Nat := do
  return (← get).rest.getD n 0

/-- The current character; zero at the end. -/
def peek : Lex Nat := do
  return (← get).rest.headD 0

/-- The current place. -/
def here : Lex Mark := do
  return (← get).mark

/-- Move past the current character, which is known to be there. -/
def pass : Lex Unit :=
  modify fun s ↦
    { s with
      rest := s.rest.tail
      mark := { s.mark with index := s.mark.index + 1, column := s.mark.column + 1 }
      newLine := if isSpacing (s.rest.headD 0) then s.newLine else false }

/-- Move past `n` characters, which are known to be there. -/
def passBy : Nat → Lex Unit
  | 0 => pure ()
  | n + 1 => do
    pass
    passBy n

/-- Move to the next character. -/
def advance : Lex Unit := do
  pass
  need 1

/-- Move `n` characters on, and see to it each time that `ahead` of them can be read. -/
def advanceBy (ahead : Nat) : Nat → Lex Unit
  | 0 => pure ()
  | n + 1 => do
    pass
    need ahead
    advanceBy ahead n

/-- Move past a line end and give the text it stands for; a carriage return with a line feed
counts once. -/
def lineEnd : Lex Bytes := do
  need 2
  let s ← get
  let width := if s.rest.headD 0 == 13 && s.rest.getD 1 0 == 10 then 2 else 1
  let c := s.rest.headD 0
  set { s with
    rest := s.rest.drop width
    mark := ⟨s.mark.index + width, s.mark.line + 1, 0⟩
    newLine := true }
  need 1
  return if c == 0x2028 || c == 0x2029 then Utf8.encode c else [10]

/-- Move past the characters for which a test holds, none of which ends a line, and give
them. -/
def takeWhile (test : Nat → Bool) : Lex Bytes := do
  let characters := (← get).rest.takeWhile test
  advanceBy 1 characters.length
  return characters.flatMap Utf8.encode

/-- Move past the spacing characters. -/
def skipSpacing : Lex Unit := do
  discard <| takeWhile isSpacing

/-- Move to the end of the line. -/
def skipLine : Lex Unit := do
  discard <| takeWhile fun c ↦ !endsLineOrText c

/-- A bound for the number of rounds of any loop over the characters left. -/
def rounds : Lex Nat := do
  return (← get).size + 2

/-! ### The queue -/

/-- Put a token at the end of the queue. -/
def push (kind : TokenKind) (start stop : Mark) : Lex Unit :=
  modify fun s ↦ { s with queue := s.queue ++ [⟨kind, start, stop⟩] }

/-- Put a token before the one with the given number; at the end of the queue, if that one has
been taken. -/
def pushBefore (number : Nat) (kind : TokenKind) (mark : Mark) : Lex Unit :=
  modify fun s ↦
    if number < s.taken then { s with queue := s.queue ++ [⟨kind, mark, mark⟩] }
    else { s with queue := s.queue.take (number - s.taken) ++ ⟨kind, mark, mark⟩
        :: s.queue.drop (number - s.taken) }

/-- Move past `n` characters that make up a token. -/
def pushNext (n : Nat) (kind : TokenKind) : Lex Unit := do
  let start ← here
  passBy n
  push kind start (← here)

/-! ### Candidates -/

/-- No longer await a token. -/
def release (token : Nat) : Lex Unit :=
  modify fun s ↦ { s with awaited := s.awaited.filter (·.1 != token) }

/-- Close the candidate of the innermost level. -/
def closeCandidate : Lex Unit := do
  modify fun s ↦ { s with candidate := { s.candidate with isOpen := false } }
  release (← get).candidate.token

/-- Drop the candidate of the innermost level; one that had to be a key is a problem. -/
def dropCandidate : Lex Unit := do
  let candidate := (← get).candidate
  if candidate.isOpen then
    if candidate.required then fail .missingColon candidate.mark
    closeCandidate

/-- Make the token that starts here a candidate, if one may start here. -/
def saveCandidate : Lex Unit := do
  let s ← get
  if s.keyAllowed then
    dropCandidate
    let token := s.taken + s.queue.length
    release token
    modify fun t ↦
      { t with
        candidate :=
          { isOpen := true, required := s.flowLevel == 0 && s.indent == s.mark.column
            token := token, mark := s.mark }
        awaited := (token, s.flowLevel) :: t.awaited }

/-- Whether a candidate can still become a key: the colon must come on the same line and within
1024 characters. One that had to be a key and no longer can is a problem. -/
def isAlive (candidate : Candidate) : Lex Bool := do
  let mark ← here
  if !candidate.isOpen then return false
  if candidate.mark.line < mark.line || candidate.mark.index + 1024 < mark.index then
    if candidate.required then fail .missingColon candidate.mark
    return false
  return true

/-- Start a level of brackets. -/
def openLevel : Lex Unit :=
  modify fun s ↦
    { s with
      candidate := ⟨false, false, s.taken + s.queue.length, s.mark⟩
      outer := s.candidate :: s.outer
      flowLevel := s.flowLevel + 1 }

/-- End a level of brackets. -/
def closeLevel : Lex Unit := do
  match (← get).outer with
  | candidate :: outer =>
    release (← get).candidate.token
    modify fun s ↦ { s with candidate := candidate, outer := outer, flowLevel := s.flowLevel - 1 }
  | [] => pure ()

/-! ### Indentation -/

/-- Open a block collection at a column, unless one is open there; `number` is the token before
which it starts, or none for the end of the queue. -/
def openBlock (column : Nat) (number : Option Nat) (kind : TokenKind) (mark : Mark) :
    Lex Unit := do
  let s ← get
  if s.flowLevel == 0 && s.indent < column then
    set { s with indents := s.indent :: s.indents, indent := column }
    if maxDepth < s.indents.length + 1 then fail .tooDeep mark
    match number with
    | some n => pushBefore n kind mark
    | none => push kind mark mark

/-- Close the block collections that start behind a column. -/
def closeBlocks (column : Int) (mark : Mark) : Lex Unit :=
  modify fun s ↦
    if s.flowLevel == 0 then
      let closed := (s.indent :: s.indents).takeWhile fun indent ↦ column < indent
      let kept := (s.indent :: s.indents).drop closed.length
      { s with
        queue := s.queue ++ closed.map fun _ ↦ ⟨.blockEnd, mark, mark⟩
        indent := kept.headD (-1)
        indents := kept.tail }
    else s

/-- Whether a candidate may start at the next token. -/
def allowKey (allowed : Bool) : Lex Unit :=
  modify fun s ↦ { s with keyAllowed := allowed }

end Lex

end ColonGap.Yaml
