import ColonGap.Script.Parser.Expression

/-!
# Statements

A statement that cannot be read is reported and skipped; `Stmt.bad` stands in for it.
-/

namespace ColonGap.Script

open Parse

variable (g : Grammar)

/-- Skip to a statement; what was skipped stands for one. -/
def skipStatement : Parse Stmt := do
  nextStatement
  return .bad

/-- A statement that may not be a lexical or class declaration. -/
def nestedStatement : Parse Stmt := do
  inScope fun s ↦ { s with allowLet := false }
  g.stmt

/-- Statements in braces. -/
def blockStatement : Parse Stmt :=
  return .block (← block g).1

/-- A block, or any other statement that may not be a declaration. -/
def blockOrNested : Parse Stmt := do
  if ← isAt .leftBrace then blockStatement g else nestedStatement g

/-- An expression in parentheses as part of a statement's head. -/
def headExpression : Parse Expr := do
  discard <| expect .leftParen
  let e ← expression g
  discard <| expect .rightParen
  return e

/-! ### Loops -/

/-- The body of a loop. -/
def loopBody : Parse Stmt := do
  let saved := (← scope).inIteration
  inScope fun s ↦ { s with inIteration := true }
  let body ← nestedStatement g
  inScope fun s ↦ { s with inIteration := saved }
  return body

/-- `do … while`. -/
def doWhileStatement : Parse Stmt := do
  let saved := (← scope).inIteration
  inScope fun s ↦ { s with inIteration := true }
  discard <| expect .doWord
  let body ← blockOrNested g
  discard <| expect .whileWord
  let test ← headExpression g
  if ← isAt .semicolon then next
  inScope fun s ↦ { s with inIteration := saved }
  return .doWhile body test

/-- `while`. -/
def whileStatement : Parse Stmt := do
  discard <| expect .whileWord
  let test ← headExpression g
  return .whileLoop test (← loopBody g)

/-- How a `for` head goes on. -/
inductive LoopKind where
  | inOf (isOf : Bool) (target : LoopTarget)
  | counted (initializer : LoopInitializer)
  /-- The head could not be read. -/
  | broken

/-- Move past `in` or `of`; tells which one it was. -/
def inOrOf? : Parse (Option Bool) := do
  let x ← lexeme
  if x.token == .inWord then
    next
    return some false
  else if x.token == .identifier && x.raw == utf8 "of" then
    next
    return some true
  else return none

/-- A `for` head that declares variables. -/
def declaringHead (kind : DeclarationKind) : Parse LoopKind := do
  next
  let bindings ← variableDeclarations g
  let isOf? ← if bindings.length == 1 then inOrOf? else pure none
  match isOf?, bindings with
  | some isOf, binding@(.mk target initializer) :: _ =>
    match initializer with
    | some e => note e.start .loopInitializer
    | none => pure ()
    match kind with
    | .var => return .inOf isOf (.var binding)
    | kind => return .inOf isOf (.declaration kind target)
  | _, _ =>
    requireInitializers bindings
    return .counted (.declaration kind bindings)

/-- A `for` head that starts with an expression; `start` is the offset of `for`. -/
def expressionHead (start : Nat) : Parse LoopKind := do
  let e ← expression g
  match ← inOrOf? with
  | none => return .counted (.expression e)
  | some isOf =>
    match e with
    | .array .. | .object .. => return .inOf isOf (.expression (← assignTarget false e))
    | e =>
      if isReference e then return .inOf isOf (.expression e)
      else
        note start .badLoopTarget
        return .broken

/-- The word that a `for` head declares variables with; `let` counts only before a name or a
pattern. -/
def headDeclaration? : Parse (Option DeclarationKind) := do
  match ← token with
  | .varWord => return some .var
  | .constWord => return some .constKind
  | .letWord =>
    match ← peek with
    | .identifier | .leftBracket | .leftBrace => return some .letKind
    | _ => return none
  | _ => return none

/-- The part of a `for` head up to `in`, `of` or the first semicolon. A head that could not be
read leaves `in` no operator in its scope. -/
def forHead (start : Nat) : Parse LoopKind := do
  if ← isAt .semicolon then return .counted .absent
  let saved := (← scope).allowIn
  inScope fun s ↦ { s with allowIn := false }
  let head ← match ← headDeclaration? with
    | some kind => declaringHead g kind
    | none => expressionHead g start
  match head with
  | .broken => return .broken
  | head =>
    inScope fun s ↦ { s with allowIn := saved }
    return head

/-- An expression, unless the given token stands in its place. -/
def expressionUnless (t : Token) : Parse (Option Expr) := do
  if ← isAt t then return none else return some (← expression g)

/-- A `for` loop of any kind. -/
def forStatement : Parse Stmt := do
  let start ← expect .forWord
  discard <| expect .leftParen
  match ← forHead g start with
  | .broken => skipStatement
  | .inOf false target =>
    let source ← expression g
    discard <| expect .rightParen
    return .forIn target source (← loopBody g)
  | .inOf true target =>
    let source ← g.expr .assignment
    discard <| expect .rightParen
    return .forOf target source (← loopBody g)
  | .counted initializer =>
    discard <| expect .semicolon
    let test ← expressionUnless g .semicolon
    discard <| expect .semicolon
    let update ← expressionUnless g .rightParen
    discard <| expect .rightParen
    return .loop initializer test update (← loopBody g)

/-! ### Jumps -/

/-- Whether a label is in reach: labels do not reach into functions. -/
def hasLabel (name : Bytes) : Scope → List Scope → Bool
  | scope, [] => scope.labels.contains name
  | scope, outer :: scopes =>
    scope.labels.contains name || (!scope.inFunction && hasLabel name outer scopes)

/-- A `break` or `continue`, which needs a loop unless `inSwitch` does. -/
def jumpStatement (isBreak : Bool) : Parse Stmt := do
  let jump := if isBreak then Stmt.breaks else Stmt.continues
  let cause := if isBreak then Cause.illegalBreak else Cause.illegalContinue
  let start ← expect (if isBreak then .breakWord else .continueWord)
  let implicit ← implicitSemicolon
  let explicit ← isAt .semicolon
  if explicit then next
  let scope ← scope
  if implicit || explicit || (← isAt .rightBrace) then
    takeImplicitSemicolon
    if scope.inIteration || (isBreak && scope.inSwitch) then return jump none
    else
      note start cause
      skipStatement
  else
    bindable
    if ← isAt .identifier then
      let name := (← lexeme).name
      next
      if !hasLabel name scope (← get).outer then
        note start (.undefinedLabel name)
        return .bad
      else if !isBreak && !scope.inIteration then
        note start cause
        skipStatement
      else
        semicolon
        return jump (some name)
    else
      discard <| expect .identifier
      note start cause
      skipStatement

/-- `return`, inside a function only. -/
def returnStatement : Parse Stmt := do
  let start ← expect .returnWord
  if !(← scope).inFunction then
    note start .illegalReturn
    skipStatement
  else
    let t ← token
    if !(← implicitSemicolon) && t != .semicolon && t != .rightBrace && t != .endOfInput then
      let argument ← expression g
      semicolon
      return .returns (some argument)
    else
      semicolon
      return .returns none

/-- `throw`, with its operand on the same line. -/
def throwStatement : Parse Stmt := do
  let start ← expect .throwWord
  if ← implicitSemicolon then
    let atEnd := (← get).lexer.reader.rest.isEmpty
    note start (if atEnd then .unexpectedEnd else .newlineAfterThrow)
    skipStatement
  else
    let argument ← expression g
    semicolon
    return .throws argument

/-! ### The other statements -/

/-- `if`. -/
def ifStatement : Parse Stmt := do
  discard <| expect .ifWord
  let test ← headExpression g
  let consequent ← blockOrNested g
  if ← isAt .elseWord then
    next
    return .branch test consequent (some (← nestedStatement g))
  else return .branch test consequent none

/-- A clause of a `switch`. -/
def clause : Parse Clause := do
  let test ← if ← isAt .defaultWord then
      next
      pure none
    else
      discard <| expect .caseWord
      pure (some (← expression g))
  discard <| expect .colon
  let body ← loop ([] : List Stmt) fun items ↦ do
    match ← token with
    | .endOfInput | .rightBrace | .caseWord | .defaultWord => return .inr items.reverse
    | _ =>
      inScope fun s ↦ { s with allowLet := true }
      return .inl ((← g.stmt) :: items)
  return .mk test body

/-- `switch`. The end of the source closes it without an error. -/
def switchStatement : Parse Stmt := do
  discard <| expect .switchWord
  let discriminant ← headExpression g
  discard <| expect .leftBrace
  let saved := (← scope).inSwitch
  inScope fun s ↦ { s with inSwitch := true }
  let clauses ← loop (([], false) : List Clause × Bool) fun (clauses, sawDefault) ↦ do
    match ← token with
    | .endOfInput => return .inr clauses.reverse
    | .rightBrace =>
      next
      return .inr clauses.reverse
    | _ =>
      let start ← here
      match ← clause g with
      | .mk none body =>
        if sawDefault then note start .duplicateDefault
        return .inl (.mk none body :: clauses, true)
      | .mk test body => return .inl (.mk test body :: clauses, sawDefault)
  inScope fun s ↦ { s with inSwitch := saved }
  return .switch discriminant clauses

/-- The `catch` part of a `try`. -/
def handler : Parse Handler := do
  if ← isAt .catchWord then
    next
    let parameter ← if ← isAt .leftParen then
        next
        let target ← bindingTarget g
        discard <| expect .rightParen
        pure (some target)
      else pure none
    return .mk parameter (← block g).1
  else return .absent

/-- `try`. -/
def tryStatement : Parse Stmt := do
  let start ← expect .tryWord
  let body := (← block g).1
  let handler ← handler g
  let finalizer ← if ← isAt .finallyWord then
      next
      pure (some (← blockStatement g))
    else pure none
  match handler, finalizer with
  | .absent, none =>
    note start .tryAlone
    return .bad
  | _, _ => return .tryCatch body handler finalizer

/-- `var`. -/
def varStatement : Parse Stmt := do
  discard <| expect .varWord
  let bindings ← variableDeclarations g
  requireInitializers bindings
  semicolon
  return .declaration .var bindings

/-- `let` or `const`. -/
def lexicalStatement (kind : DeclarationKind) : Parse Stmt := do
  let start ← here
  next
  if !(← scope).allowLet then note start .lexicalAlone
  let bindings ← variableDeclarations g
  requireInitializers bindings
  semicolon
  return .declaration kind bindings

/-- `with`. -/
def withStatement : Parse Stmt := do
  discard <| expect .withWord
  let object ← headExpression g
  return .scoped object (← nestedStatement g)

/-- `debugger`. -/
def debuggerStatement : Parse Stmt := do
  discard <| expect .debuggerWord
  semicolon
  return .debugger

/-- An expression, or a label with its statement. -/
def expressionStatement : Parse Stmt := do
  let e ← expression g
  match e, ← token with
  | .identifier span label, .colon =>
    next
    if (← scope).labels.contains label then note span.start (.duplicateLabel label)
    inScope fun s ↦ { s with labels := label :: s.labels }
    let body ← nestedStatement g
    inScope fun s ↦ { s with labels := s.labels.drop 1 }
    return .labelled label body
  | e, _ =>
    optionalSemicolon
    return .expression e

/-- Any statement. -/
def statement : Parse Stmt := do
  match ← token with
  | .endOfInput =>
    unexpected .endOfInput
    return .bad
  | .semicolon =>
    next
    return .empty
  | .leftBrace => blockStatement g
  | .ifWord => ifStatement g
  | .doWord => doWhileStatement g
  | .whileWord => whileStatement g
  | .forWord => forStatement g
  | .breakWord => jumpStatement true
  | .continueWord => jumpStatement false
  | .debuggerWord => debuggerStatement
  | .withWord => withStatement g
  | .varWord => varStatement g
  | .constWord => lexicalStatement g .constKind
  | .letWord =>
    let t ← peek
    if t == .leftBracket || ((← scope).allowLet && (t.isName || t == .leftBrace)) then
      lexicalStatement g .letKind
    else
      modify fun s ↦ { s with lexer := { s.lexer with insertSemicolon := true } }
      expressionStatement g
  | .asyncWord =>
    match ← asyncFunction? g true with
    | some f => return .function f
    | none => expressionStatement g
  | .functionWord => return .function (← function g true false (← here))
  | .classWord => return .classDeclaration (← classBody g true)
  | .switchWord => switchStatement g
  | .returnWord => returnStatement g
  | .throwWord => throwStatement g
  | .tryWord => tryStatement g
  | _ => expressionStatement g

end ColonGap.Script
