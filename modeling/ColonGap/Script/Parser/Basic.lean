import ColonGap.Script.Lexer
import ColonGap.Script.Tree

/-!
# The state of the parser

The parser is a recursive descent over a state that holds the lexer, the current token and the
scope. It never stops at an error: the first one is kept and parsing goes on, because some
heads are read a second time in another way, and the errors of the first reading are then
dropped. What such a second reading finds depends on where the first one left the state, so the
state after an error matters as much as the error.

The productions call one another through a `Grammar`, a record of the few that are recursive.
`Grammar` values are tied together by counting down a depth, which keeps every definition
structurally recursive. Loops count down a budget that is ample for any source.
-/

namespace ColonGap.Script

/-- What the constructs around a place allow there. -/
structure Scope where
  /-- Whether `in` is an operator. -/
  allowIn : Bool := true
  /-- Whether a lexical or class declaration may stand here. -/
  allowLet : Bool := false
  inIteration : Bool := false
  inSwitch : Bool := false
  inFunction : Bool := false
  inAsync : Bool := false
  /-- Whether `await` is an operator. -/
  allowAwait : Bool := false
  /-- Whether `yield` is an operator. -/
  allowYield : Bool := false
  inParameters : Bool := false
  labels : List Bytes := []
deriving Inhabited

/-- The state of the parser. -/
structure ParserState where
  source : Bytes
  lexer : Lexer
  /-- The current token. -/
  lexeme : Lexeme
  /-- One past the offset of the token at which skipping to a statement last stopped. -/
  stoppedAt : Nat
  /-- How often skipping has stopped there again. -/
  stops : Nat
  scope : Scope
  /-- The scopes around the current one, innermost first. -/
  outer : List Scope
  /-- How many rounds a loop may take. -/
  budget : Nat
deriving Inhabited

/-- A parsing step. -/
abbrev Parse := StateM ParserState

/-- The recursive productions of expressions. -/
inductive ExprGoal where
  | assignment | unary | power | relational | leftHandSide | call | object
deriving DecidableEq

/-- The recursive productions. -/
structure Grammar where
  expr : ExprGoal → Parse Expr
  stmt : Parse Stmt

namespace Parse

/-- Keep an error at an offset, unless there is one already. An error whose place is not recorded
is reported at the current character. -/
def note (place : Option Nat) (cause : Cause) : Parse Unit :=
  modify fun s ↦ { s with lexer := s.lexer.note (place.getD s.lexer.reader.offset) cause }

/-- Whether no error has been found yet. -/
def isClean : Parse Bool :=
  return (← get).lexer.reader.error.isNone

/-- The current token. -/
def lexeme : Parse Lexeme :=
  return (← get).lexeme

/-- The kind of the current token. -/
def token : Parse Token :=
  return (← get).lexeme.token

/-- The offset of the current token. -/
def here : Parse Nat :=
  return (← get).lexeme.start

/-- Whether the current token is of the given kind. -/
def isAt (t : Token) : Parse Bool :=
  return (← get).lexeme.token == t

/-- The current scope. -/
def scope : Parse Scope :=
  return (← get).scope

/-- Change the current scope. -/
def inScope (f : Scope → Scope) : Parse Unit :=
  modify fun s ↦ { s with scope := f s.scope }

/-- The words that the scope reserves. -/
def reserved : Parse Reserved := do
  let scope := (← get).scope
  return ⟨scope.allowAwait, scope.allowYield⟩

/-- Move to the next token. -/
def next : Parse Unit := do
  let reserved ← reserved
  modify fun s ↦
    let (lexeme, lexer) := s.lexer.scan reserved
    { s with lexeme := lexeme, lexer := lexer }

/-- The kind of the token after the current one. Errors that reading it finds are kept. -/
def peek : Parse Token := do
  let s ← get
  let (lexeme, lexer) := s.lexer.scan (← reserved)
  set { s with lexer :=
    { s.lexer with reader := { s.lexer.reader with error := lexer.reader.error } } }
  return lexeme.token

/-- Whether a line break before the current token stands for a semicolon. -/
def implicitSemicolon : Parse Bool :=
  return (← get).lexer.implicitSemicolon

/-- Use up the semicolon that a line break stands for. -/
def takeImplicitSemicolon : Parse Unit :=
  modify fun s ↦ { s with lexer := { s.lexer with implicitSemicolon := false } }

/-- Whether the token can be the name of a variable here. -/
def canBind (t : Token) : Parse Bool :=
  return (← reserved).allows t

/-- Read a word that can name a variable here as an identifier. -/
def bindable : Parse Unit := do
  if ← canBind (← token) then
    modify fun s ↦ { s with lexeme := { s.lexeme with token := .identifier } }

/-- Report a token as unexpected. The offset is that of the current token. -/
def unexpected (t : Token) : Parse Unit := do
  let s ← get
  let x := s.lexeme
  match t with
  | .endOfInput => note s.lexer.reader.offset .unexpectedEnd
  | .boolean | .null => note x.start (.unexpectedLiteral x.raw)
  | .identifier => note x.start .unexpectedIdentifier
  | .reservedWord => note x.start .unexpectedReservedWord
  | .escapedWord => note x.start .escapedKeyword
  | .number => note x.start .unexpectedNumber
  | .string => note x.start .unexpectedString
  | t => note x.start (.unexpectedToken t)

/-- Move past the current token, which should be of the given kind. Returns its offset. -/
def expect (t : Token) : Parse Nat := do
  let x ← lexeme
  if x.token != t then unexpected x.token
  next
  return x.start

/-- The end of a statement that may do without a semicolon. -/
def optionalSemicolon : Parse Unit := do
  let t ← token
  if t == .semicolon then next
  else if ← implicitSemicolon then takeImplicitSemicolon
  else if t != .endOfInput && t != .rightBrace then discard <| expect .semicolon

/-- The end of a statement that needs a semicolon. -/
def semicolon : Parse Unit := do
  let t ← token
  if t != .rightParen && t != .rightBrace then
    if ← implicitSemicolon then takeImplicitSemicolon else discard <| expect .semicolon

/-- Repeat a step until it gives a result; `none` when the budget runs out. -/
def loopWith {α β : Type} (step : α → Parse (α ⊕ β)) : Nat → α → Parse (Option β)
  | 0, _ => return none
  | n + 1, a => do
    match ← step a with
    | .inl a => loopWith step n a
    | .inr b => return some b

/-- Repeat a step until it gives a result, within the budget. -/
def loop {α β : Type} [Inhabited β] (start : α) (step : α → Parse (α ⊕ β)) : Parse β := do
  match ← loopWith step (← get).budget start with
  | some b => return b
  | none =>
    note (← get).lexer.reader.offset .tooDeep
    return default

/-- Whether skipping to a statement may stop at the token. -/
def isSynchronizing : Token → Bool
  | .breakWord | .continueWord | .forWord | .ifWord | .returnWord | .switchWord => true
  | .varWord | .doWord | .tryWord | .withWord | .whileWord | .throwWord => true
  | .catchWord | .finallyWord => true
  | _ => false

/-- Skip to a word that opens a statement. Skipping stops at one place ten times at most. -/
def nextStatement : Parse Unit :=
  loop () fun _ ↦ do
    let s ← get
    let place := s.lexeme.start + 1
    if s.lexeme.token == .endOfInput then return .inr ()
    else if isSynchronizing s.lexeme.token && place == s.stoppedAt && s.stops < 10 then
      set { s with stops := s.stops + 1 }
      return .inr ()
    else if isSynchronizing s.lexeme.token && s.stoppedAt < place then
      set { s with stoppedAt := place, stops := 0 }
      return .inr ()
    else
      next
      return .inl ()

/-- A place to return to: the current token, the lexer and its errors. -/
abbrev Mark := Lexeme × Lexer

/-- The current place. -/
def mark : Parse Mark :=
  return ((← get).lexeme, (← get).lexer)

/-- Return to a place and drop the errors found since. -/
def restore (m : Mark) : Parse Unit :=
  modify fun s ↦ { s with lexeme := m.1, lexer := m.2 }

/-- A stand-in for an expression from an offset up to the current token. -/
def badFrom (start : Nat) : Parse Expr :=
  return .bad ⟨start, ← here⟩

/-- Skip to a statement; what was skipped stands for an expression. -/
def skipFrom (start : Nat) : Parse Expr := do
  nextStatement
  badFrom start

/-- The extent of a name that starts at an offset: its length if it is ASCII, and otherwise two
bytes more than twice its number of UTF-16 units. -/
def nameSpan (start : Nat) (name : Bytes) : Span :=
  ⟨start, start + if name.all (· < 0x80) then name.length else 2 + 2 * (Utf16.units name).length⟩

/-- The current token as an identifier; moves past it. -/
def identifier : Parse Expr := do
  let x ← lexeme
  next
  return .identifier (nameSpan x.start x.name) x.name

/-- Run a step with `await` and `yield` reserved as given, and restore the scope's choice. -/
def withReserved {α : Type} (await yield : Bool) (step : Parse α) : Parse α := do
  let saved ← scope
  inScope fun s ↦ { s with allowAwait := await, allowYield := yield }
  let result ← step
  inScope fun s ↦ { s with allowAwait := saved.allowAwait, allowYield := saved.allowYield }
  return result

/-- Run a step with `in` as an operator or not, and restore the scope's choice. -/
def withIn {α : Type} (allowed : Bool) (step : Parse α) : Parse α := do
  let saved := (← scope).allowIn
  inScope fun s ↦ { s with allowIn := allowed }
  let result ← step
  inScope fun s ↦ { s with allowIn := saved }
  return result

end Parse

end ColonGap.Script
