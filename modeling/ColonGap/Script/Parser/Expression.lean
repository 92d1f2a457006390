import ColonGap.Script.Parser.Object

/-!
# Expressions

One production per level of precedence, from the operands up to assignments. An arrow function
is recognised late: its head is first read as an expression, and only the arrow behind it tells
that it was a list of parameters. The head is then re-read, either on the tree or, where the
tree no longer holds enough, from the source.
-/

namespace ColonGap.Script

open Parse

variable (g : Grammar)

/-! ### Operands -/

/-- A member access behind a point, which is the current token. -/
def dotMember (left : Expr) : Parse Expr := do
  let period ← here
  next
  let x ← lexeme
  let span := nameSpan x.start x.name
  if x.token == .privateName then
    next
    return .privateMember ⟨left.start, span.stop⟩ left x.name
  else if x.token.isName then
    next
    return .member ⟨left.start, span.stop⟩ left x.name
  else
    discard <| expect .identifier
    skipFrom period

/-- A member access in square brackets. -/
def bracketMember (left : Expr) : Parse Expr := do
  discard <| expect .leftBracket
  let key ← expression g
  let stop ← expect .rightBracket
  return .index ⟨left.start, stop + 1⟩ left key

/-- A call. -/
def callOf (left : Expr) : Parse Expr := do
  let (arguments, stop) ← argumentList g
  return .call ⟨left.start, stop + 1⟩ left arguments

/-- `super` with an access or a call. -/
def superOperand : Parse Expr := do
  let start ← here
  next
  let operand := Expr.super ⟨start, start + 5⟩
  match ← token with
  | .period =>
    next
    let x ← lexeme
    if x.token.isName then
      next
      return .member ⟨start, (nameSpan x.start x.name).stop⟩ operand x.name
    else
      discard <| expect .identifier
      skipFrom start
  | .leftBracket => bracketMember g operand
  | .leftParen => callOf g operand
  | _ =>
    note start .straySuper
    skipFrom start

/-- The items between parentheses, reversed. -/
def parenthesizedItems : Parse (List Expr) := do
  if ← isAt .rightParen then return []
  loop ([] : List Expr) fun items ↦ do
    let start ← here
    let item ← if ← isAt .ellipsis then
        unexpected .ellipsis
        next
        let inner ← g.expr .assignment
        pure (Expr.bad ⟨start, inner.stop⟩)
      else g.expr .assignment
    if ← isAt .comma then
      next
      if ← isAt .rightParen then
        unexpected .rightParen
        return .inr (item :: items)
      else return .inl (item :: items)
    else return .inr (item :: items)

/-- An expression in parentheses, which leave no trace in the tree. -/
def parenthesized : Parse Expr := do
  let start ← expect .leftParen
  let items ← parenthesizedItems g
  discard <| expect .rightParen
  match items with
  | [] =>
    unexpected .rightParen
    badFrom start
  | [item] => if ← isClean then return item else return sequenceOf [item]
  | items => return sequenceOf items.reverse

/-- An operand that is no access, call or `new`. -/
def primary : Parse Expr := do
  let x ← lexeme
  let span : Span := ⟨x.start, x.start + x.raw.length⟩
  match x.token with
  | .identifier => identifier
  | .null =>
    next
    return .null ⟨x.start, x.start + 4⟩
  | .boolean =>
    next
    return .boolean span (x.raw == utf8 "true")
  | .string =>
    next
    return .string span x.raw x.value
  | .number => numeral
  | .slash | .slashAssign => regex
  | .leftBrace => g.expr .object
  | .leftBracket => arrayLiteral g
  | .leftParen => parenthesized g
  | .backtick => template g none
  | .thisWord =>
    next
    return .this ⟨x.start, x.start + 4⟩
  | .superWord => superOperand g
  | .functionWord => return .function (← function g false false x.start)
  | .classWord => return .classExpr (← classBody g false)
  | t =>
    let asyncFunction ← if t == .asyncWord then asyncFunction? g false else pure none
    match asyncFunction with
    | some f => return .function f
    | none =>
      if ← canBind t then identifier
      else
        unexpected t
        skipFrom x.start

/-- `new` with an operand. Without arguments, and also with an empty list of them, it ends where
its operand ends. -/
def construction : Parse Expr := do
  let start ← expect .newWord
  let isMeta ← if ← isAt .period then
      next
      if (← lexeme).raw == utf8 "target" then pure true
      else
        unexpected .identifier
        pure false
    else pure false
  if isMeta then
    let x ← lexeme
    next
    return .metaProperty ⟨none, (nameSpan x.start x.name).stop⟩ x.name
  match ← g.expr .leftHandSide with
  | .bad span => return .bad ⟨start, span.stop⟩
  | callee =>
    if ← isAt .leftParen then
      let (arguments, stop) ← argumentList g
      let stop := if arguments.isEmpty then callee.stop else stop + 1
      return .construct ⟨start, stop⟩ callee arguments
    else return .construct ⟨start, callee.stop⟩ callee []

/-- An operand of `new`: accesses but no calls. -/
def leftHandSide : Parse Expr := do
  let operand ← if ← isAt .newWord then construction g else primary g
  loop operand fun left ↦ do
    match ← token with
    | .period => return .inl (← dotMember left)
    | .leftBracket => return .inl (← bracketMember g left)
    | .backtick => return .inl (← template g (some left))
    | _ => return .inr left

/-- An operand with accesses and calls. The flag tells whether a `?.` has occurred. -/
def callExpression : Parse Expr :=
  withIn true do
    let start ← here
    let operand ← if ← isAt .newWord then construction g else primary g
    loop (operand, false) fun (left, chained) ↦ do
      match ← token with
      | .period => return .inl (← dotMember left, chained)
      | .leftBracket => return .inl (← bracketMember g left, chained)
      | .leftParen => return .inl (← callOf g left, chained)
      | .backtick =>
        if chained then
          note (← here) .templateOnChain
          return .inr (← skipFrom start)
        else return .inl (← template g (some left), chained)
      | .questionDot =>
        let left := Expr.optional left.span left
        match ← peek with
        | .leftBracket | .leftParen | .backtick =>
          next
          return .inl (left, true)
        | _ => return .inl (← dotMember left, true)
      | _ => return .inr (if chained then .chain left.span left else left)

/-! ### Operators -/

/-- Whether an expression can be assigned to as it stands. -/
def isReference : Expr → Bool
  | .identifier .. | .member .. | .privateMember .. | .index .. => true
  | _ => false

/-- `++` and `--` before or behind an operand. Behind one, the extent is the operand's and two
bytes more. -/
def updateExpression : Parse Expr := do
  let x ← lexeme
  if x.token == .increment || x.token == .decrement then
    next
    let operand ← g.expr .unary
    if isReference operand then return .unary ⟨x.start, operand.stop⟩ x.token operand
    else
      note x.start .badAssignmentTarget
      skipFrom x.start
  else
    let operand ← callExpression g
    let x ← lexeme
    if (x.token == .increment || x.token == .decrement) && !(← implicitSemicolon) then
      next
      if isReference operand then
        return .postUpdate ⟨operand.start, operand.stop + 2⟩ x.token operand
      else
        note x.start .badAssignmentTarget
        skipFrom x.start
    else return operand

/-- Whether a token is an operator before its operand. -/
def isUnaryOperator : Token → Bool
  | .plus | .minus | .not | .bitNot | .deleteWord | .voidWord | .typeofWord => true
  | _ => false

/-- Operators before an operand, `await` included. -/
def unaryExpression : Parse Expr := do
  let x ← lexeme
  let scope ← scope
  if isUnaryOperator x.token then
    next
    let operand ← g.expr .unary
    return .unary ⟨x.start, operand.stop⟩ x.token operand
  else if x.token == .awaitWord && scope.allowAwait then
    next
    if !scope.inAsync then
      unexpected .awaitWord
      badFrom x.start
    else
      if scope.inParameters then note x.start .awaitInParameters
      let argument ← g.expr .unary
      return .await ⟨x.start, argument.stop⟩ argument
  else updateExpression g

/-- The expression that joins two operands. -/
def binaryOf (operator : Token) (left right : Expr) : Expr :=
  .binary ⟨left.start, right.stop⟩ operator left right

/-- Whether an expression may stand before `**` without parentheses. -/
def isPowerBase : Expr → Bool
  | .unary _ operator _ => operator == .increment || operator == .decrement
  | _ => true

/-- Powers, which associate to the right. -/
def powerExpression : Parse Expr := do
  let isParenthesized ← isAt .leftParen
  let left ← unaryExpression g
  if ← isAt .power then
    if !isParenthesized && !isPowerBase left then note (← here) .unaryPower
    loop left fun left ↦ do
      next
      let left := binaryOf .power left (← g.expr .power)
      if ← isAt .power then return .inl left else return .inr left
  else return left

/-- A level of operators that associate to the left. -/
def leftAssociative (operators : List Token) (operand : Parse Expr) : Parse Expr := do
  let first ← operand
  loop first fun left ↦ do
    let t ← token
    if operators.contains t then
      next
      return .inl (binaryOf t left (← operand))
    else return .inr left

/-- Products. -/
def multiplicative : Parse Expr :=
  leftAssociative [.times, .slash, .remainder] (powerExpression g)

/-- Sums. -/
def additive : Parse Expr :=
  leftAssociative [.plus, .minus] (multiplicative g)

/-- Shifts. -/
def shift : Parse Expr :=
  leftAssociative [.shiftLeft, .shiftRight, .shiftRightUnsigned] (additive g)

/-- Comparisons, which associate to the right, and a test for a private name. -/
def relational : Parse Expr := do
  let x ← lexeme
  let allowIn := (← scope).allowIn
  if allowIn && x.token == .privateName then
    next
    let left := Expr.privateName (nameSpan x.start x.name) x.name
    if ← isAt .inWord then
      next
      return binaryOf .inWord left (← shift g)
    else return left
  else
    let left ← shift g
    let t ← token
    let isOperator := match t with
      | .less | .lessEqual | .greater | .greaterEqual | .instanceofWord => true
      | .inWord => allowIn
      | _ => false
    if isOperator then
      withIn true do
        next
        return binaryOf t left (← g.expr .relational)
    else return left

/-- Equality. -/
def equality : Parse Expr :=
  leftAssociative [.equal, .notEqual, .strictEqual, .strictNotEqual] (relational g)

/-- Bitwise conjunction. -/
def bitwiseAnd : Parse Expr :=
  leftAssociative [.bitAnd] (equality g)

/-- Bitwise exclusive disjunction. -/
def bitwiseXor : Parse Expr :=
  leftAssociative [.bitXor] (bitwiseAnd g)

/-- Bitwise disjunction. -/
def bitwiseOr : Parse Expr :=
  leftAssociative [.bitOr] (bitwiseXor g)

/-- Conjunction. -/
def logicalAnd : Parse Expr :=
  leftAssociative [.logicalAnd] (bitwiseOr g)

/-- Whether an expression is a conjunction. -/
def isConjunction : Expr → Bool
  | .binary _ operator _ _ => operator == .logicalAnd
  | _ => false

/-- Disjunction and `??`, which do not mix without parentheses. -/
def logicalOr : Parse Expr := do
  let isParenthesized ← isAt .leftParen
  let first ← logicalAnd g
  if (← isAt .logicalOr) || (!isParenthesized && isConjunction first) then
    loop first fun left ↦ do
      match ← token with
      | .logicalOr =>
        next
        return .inl (binaryOf .logicalOr left (← logicalAnd g))
      | .coalesce =>
        note (← here) .mixedCoalesce
        return .inr left
      | _ => return .inr left
  else
    loop first fun left ↦ do
      let place ← here
      match ← token with
      | .coalesce =>
        next
        let isParenthesized ← isAt .leftParen
        let right ← logicalAnd g
        if !isParenthesized && isConjunction right then
          note place .mixedCoalesce
          return .inr left
        else return .inl (binaryOf .coalesce left right)
      | .logicalOr =>
        note place .mixedCoalesce
        return .inr left
      | _ => return .inr left

/-- A choice between two expressions. -/
def conditional : Parse Expr := do
  let test ← logicalOr g
  if ← isAt .question then
    let consequent ← withIn true do
      next
      g.expr .assignment
    discard <| expect .colon
    let alternate ← g.expr .assignment
    return .conditional ⟨test.start, alternate.stop⟩ test consequent alternate
  else return test

/-! ### Assignments -/

/-- A `yield`. An argument that cannot be read is none. -/
def yieldExpression : Parse Expr := do
  let start ← expect .yieldWord
  if (← scope).inParameters then note start .yieldInParameters
  let delegate := !(← implicitSemicolon) && (← isAt .times)
  if delegate then next
  let t ← token
  if !(← implicitSemicolon) && t != .semicolon && t != .rightBrace && t != .endOfInput then
    let place ← mark
    match ← g.expr .assignment with
    | .bad _ =>
      restore place
      return .yield ⟨start, start + 5⟩ delegate none
    | argument => return .yield ⟨start, argument.stop⟩ delegate (some argument)
  else return .yield ⟨start, start + 5⟩ delegate none

/-- Whether a token assigns. -/
def isAssignment : Token → Bool
  | .assign | .plusAssign | .minusAssign | .timesAssign | .powerAssign | .slashAssign => true
  | .remainderAssign | .bitAndAssign | .bitOrAssign | .bitXorAssign | .shiftLeftAssign => true
  | .shiftRightAssign | .shiftRightUnsignedAssign | .logicalAndAssign | .logicalOrAssign => true
  | .coalesceAssign => true
  | _ => false

/-- How the head of a possible arrow function starts. -/
inductive ArrowHead where
  | plain
  | parenthesis (place : Mark)
  | asyncCall (place : Mark)

/-- The arrow function whose head has been read as the expression `left`. -/
def arrowFrom (start : Nat) (head : ArrowHead) (left : Expr) : Parse Expr := do
  match left, head with
  | .identifier .., .asyncCall _ => arrowFunction g start (.mk [.mk left none] none) true
  | .identifier .., _ => arrowFunction g start (.mk [.mk left none] none) false
  | .sequence _ items, .parenthesis place =>
    let list ← if ← isClean then asParameters items
      else
        restore place
        parameters g
    arrowFunction g start list false
  | _, .parenthesis place =>
    restore place
    arrowFunction g start (← parameters g) false
  | .call .., .asyncCall place =>
    restore place
    let saved := (← scope).allowYield
    withReserved true saved do
      next
      arrowFunction g start (← parameters g) true
  | _, _ =>
    note left.start .malformedArrow
    return .bad left.span

/-- The target of an assignment; a literal before `=` becomes a pattern. -/
def assignmentTarget? (isParenthesized : Bool) (operator : Token) (left : Expr) :
    Parse (Option Expr) := do
  if isReference left then return some left
  match left with
  | .array .. | .object .. =>
    if !isParenthesized && operator == .assign then return some (← assignTarget false left)
    else return none
  | _ => return none

/-- What follows the left side of a possible assignment. -/
def assignmentTail (start : Nat) (head : ArrowHead) (left : Expr) : Parse Expr := do
  let x ← lexeme
  if x.token == .arrow then arrowFrom g start head left
  else if isAssignment x.token then
    next
    let isParenthesized := match head with | .parenthesis _ => true | _ => false
    match ← assignmentTarget? isParenthesized x.token left with
    | some target =>
      let right ← g.expr .assignment
      return .assignment ⟨target.start, right.stop⟩ x.token target right
    | none =>
      note left.start .badAssignmentTarget
      skipFrom x.start
  else return left

/-- An expression without commas. -/
def assignment : Parse Expr := do
  let x ← lexeme
  let start := x.start
  match x.token with
  | .leftParen =>
    let place ← mark
    assignmentTail g start (.parenthesis place) (← conditional g)
  | .asyncWord =>
    let t ← peek
    if ← canBind t then
      next
      asyncArrow g start
    else
      let head ← if t == .leftParen then pure (ArrowHead.asyncCall (← mark)) else pure .plain
      assignmentTail g start head (← conditional g)
  | t =>
    if t == .yieldWord && (← scope).allowYield then yieldExpression g
    else
      bindable
      assignmentTail g start .plain (← conditional g)

end ColonGap.Script
