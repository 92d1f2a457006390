import ColonGap.Yaml.Lexer.Property
import ColonGap.Yaml.Lexer.Scalar
import ColonGap.Yaml.Lexer.Trivia

/-!
# The tokens of a document

The first characters of a token tell what it is. Tokens are queued two ahead of the one that is
taken next, and further as long as that one may still turn out to be a key; a fault in the tokens
ahead therefore comes before a fault in how the tokens fit together.
-/

namespace ColonGap.Yaml

namespace Lex

/-- Queue the start of the document. -/
def streamStart : Lex Unit := do
  modify fun s ↦ { s with started := true }
  push .streamStart (← here) (← here)

/-- Queue the end of the document. -/
def streamEnd : Lex Unit := do
  modify fun s ↦
    if s.mark.column == 0 then s else { s with mark := ⟨s.mark.index, s.mark.line + 1, 0⟩ }
  closeBlocks (-1) (← here)
  dropCandidate
  allowKey false
  push .streamEnd (← here) (← here)

/-- Queue `---` or `...`. -/
def documentMark (kind : TokenKind) : Lex Unit := do
  closeBlocks (-1) (← here)
  dropCandidate
  allowKey false
  pushNext 3 kind

/-- Queue an opening bracket. -/
def flowStart (kind : TokenKind) : Lex Unit := do
  saveCandidate
  openLevel
  if maxDepth < (← get).flowLevel then fail .tooDeep (← here)
  allowKey true
  pushNext 1 kind

/-- Queue a closing bracket. -/
def flowEnd (kind : TokenKind) : Lex Unit := do
  dropCandidate
  closeLevel
  allowKey false
  pushNext 1 kind

/-- Queue a comma. -/
def flowEntry : Lex Unit := do
  dropCandidate
  allowKey true
  pushNext 1 .flowEntry

/-- Queue a dash. -/
def blockEntry : Lex Unit := do
  let s ← get
  if s.flowLevel == 0 then
    if !s.keyAllowed then fail .sequenceNotAllowed s.mark
    openBlock s.mark.column none .blockSequenceStart s.mark
  dropCandidate
  allowKey true
  pushNext 1 .blockEntry

/-- Queue a question mark. -/
def key : Lex Unit := do
  let s ← get
  if s.flowLevel == 0 then
    if !s.keyAllowed then fail .keyNotAllowed s.mark
    openBlock s.mark.column none .blockMappingStart s.mark
  dropCandidate
  allowKey (s.flowLevel == 0)
  pushNext 1 .key

/-- Queue a colon. A candidate before it becomes a key. -/
def value : Lex Unit := do
  let candidate := (← get).candidate
  if ← isAlive candidate then
    pushBefore candidate.token .key candidate.mark
    openBlock candidate.mark.column (some candidate.token) .blockMappingStart candidate.mark
    closeCandidate
    allowKey false
  else
    modify fun s ↦ { s with candidate := { candidate with isOpen := false } }
    let s ← get
    if s.flowLevel == 0 then
      if !s.keyAllowed then fail .valueNotAllowed s.mark
      openBlock s.mark.column none .blockMappingStart s.mark
    allowKey (s.flowLevel == 0)
  pushNext 1 .value

/-- Whether a plain scalar can start with a character that another one follows. -/
def startsPlain (flow : Bool) (c next : Nat) : Bool :=
  !(endsWord c || [45, 63, 58, 44, 91, 93, 123, 125, 35, 38, 42, 33, 124, 62, 39, 34, 37, 64,
      96].contains c)
    || (c == 45 && !isSpacing next)
    || (!flow && (c == 63 || c == 58) && !endsWord next)

/-- Queue the token that starts with the current character. -/
def tokenHere : Lex Unit := do
  let c ← peek
  let next ← peekAt 1
  let flow := decide (0 < (← get).flowLevel)
  if c == 91 then flowStart .flowSequenceStart
  else if c == 123 then flowStart .flowMappingStart
  else if c == 93 then flowEnd .flowSequenceEnd
  else if c == 125 then flowEnd .flowMappingEnd
  else if c == 44 then flowEntry
  else if c == 45 && endsWord next then blockEntry
  else if c == 63 && (flow || endsWord next) then key
  else if c == 58 && (flow || endsWord next) then value
  else if c == 42 then anchor .reference
  else if c == 38 then anchor .anchor
  else if c == 33 then tag
  else if c == 124 && !flow then blockScalar true
  else if c == 62 && !flow then blockScalar false
  else if c == 39 then quotedScalar true
  else if c == 34 then quotedScalar false
  else if startsPlain flow c next then plainScalar
  else fail .noToken (← here)

/-- Whether the last token of the queue is a dash. -/
def endsWithDash : Lex Bool := do
  return ((← get).queue.getLast?.map (·.kind)) == some .blockEntry

/-- Queue the next token. -/
def nextToken : Lex Unit := do
  need 1
  if !(← get).started then streamStart
  else
    let before ← here
    toToken (← rounds)
    closeBlocks (← here).column before
    need 4
    let c ← peek
    if c == 0 then streamEnd
    else if (← here).column == 0 && c == 37 then directive
    else if ← atDocumentMark then
      documentMark (if c == 45 then .documentStart else .documentEnd)
    else
      tokenHere
      if !(← endsWithDash) then lineComment

/-- Whether the first token of the queue may still turn out to be a key: it is awaited, and the
candidate that it waits for is alive. -/
def headUndecided : Lex Bool := do
  let s ← get
  match s.awaited.lookup s.taken with
  | none => return false
  | some level =>
    if s.flowLevel < level then return false
    let candidates := s.candidate :: s.outer
    let candidate := candidates.getD (s.flowLevel - level) s.candidate
    if ← isAlive candidate then return true
    let closed := candidates.set (s.flowLevel - level) { candidate with isOpen := false }
    set { s with candidate := closed.headD candidate, outer := closed.tail }
    return false

/-- Queue tokens until the first one is settled. -/
def settle : (fuel : Nat) → Lex Unit
  | 0 => pure ()
  | fuel + 1 => do
    let undecided ← if 2 < (← get).queue.length then headUndecided else pure true
    if undecided then
      nextToken
      settle fuel
    else modify fun s ↦ { s with settled := true }

/-- The next token. -/
def peekToken : Lex Token := do
  if !(← get).settled then settle ((← rounds) + 8)
  match (← get).queue with
  | token :: _ => return token
  | [] => return ⟨.streamEnd, ← here, ← here⟩

/-- Take the next token, which is awaited no longer. -/
def skipToken : Lex Unit :=
  modify fun s ↦
    { s with
      queue := s.queue.tail, taken := s.taken + 1, settled := false
      awaited := s.awaited.filter (s.taken < ·.1) }

end Lex

end ColonGap.Yaml
