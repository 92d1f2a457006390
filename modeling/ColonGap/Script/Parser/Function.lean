import ColonGap.Script.Parser.Literal

/-!
# Variables and functions

Declared variables, formal parameters, and the bodies of functions, methods and arrow
functions. A body in braces opens a scope of its own.
-/

namespace ColonGap.Script

open Parse

variable (g : Grammar)

/-- The target of a declaration: a name or a pattern. -/
def bindingTarget : Parse Expr := do
  bindable
  match ← token with
  | .identifier => identifier
  | .leftBracket => bindTarget false (← arrayLiteral g)
  | .leftBrace => bindTarget false (← g.expr .object)
  | _ =>
    let start ← expect .identifier
    skipFrom start

/-- A declared variable with its optional initial value. -/
def variableDeclaration : Parse Binding := do
  let target ← bindingTarget g
  if ← isAt .assign then
    next
    return .mk target (some (← g.expr .assignment))
  else return .mk target none

/-- Declared variables between commas. -/
def variableDeclarations : Parse (List Binding) :=
  loop ([] : List Binding) fun bindings ↦ do
    let bindings := (← variableDeclaration g) :: bindings
    if ← isAt .comma then
      next
      return .inl bindings
    else return .inr bindings.reverse

/-- A declared pattern needs an initial value; the first without one is reported. -/
def requireInitializers : List Binding → Parse Unit
  | [] => return
  | .mk target none :: bindings =>
    match target with
    | .arrayPattern .. | .objectPattern .. => note target.stop .missingInitializer
    | _ => requireInitializers bindings
  | .mk _ (some _) :: bindings => requireInitializers bindings

/-- The formal parameters between parentheses. -/
def parameters : Parse Parameters := do
  discard <| expect .leftParen
  let saved := (← scope).inParameters
  inScope fun s ↦ { s with inParameters := true }
  let result ← loop ([] : List Binding) fun bindings ↦ do
    match ← token with
    | .rightParen | .endOfInput => return .inr (Parameters.mk bindings.reverse none)
    | .ellipsis =>
      next
      let rest ← bindTarget false (← g.expr .assignment)
      return .inr (.mk bindings.reverse (some rest))
    | _ =>
      let bindings := (← variableDeclaration g) :: bindings
      if !(← isAt .rightParen) then discard <| expect .comma
      return .inl bindings
  discard <| expect .rightParen
  inScope fun s ↦ { s with inParameters := saved }
  return result

/-- Statements up to a closing brace. -/
def statements : Parse (List Stmt) :=
  loop ([] : List Stmt) fun items ↦ do
    match ← token with
    | .rightBrace | .endOfInput => return .inr items.reverse
    | _ =>
      inScope fun s ↦ { s with allowLet := true }
      return .inl ((← g.stmt) :: items)

/-- Statements in braces and the offset behind the closing brace. -/
def block : Parse (List Stmt × Nat) := do
  discard <| expect .leftBrace
  let items ← statements g
  let stop ← expect .rightBrace
  return (items, stop + 1)

/-- The body of a function, in a scope of its own. -/
def functionBlock (isAsync allowAwait allowYield : Bool) : Parse (List Stmt × Nat) := do
  modify fun s ↦
    { s with
      scope :=
        { inFunction := true, inAsync := isAsync, allowAwait := allowAwait, allowYield := allowYield }
      outer := s.scope :: s.outer }
  let result ← block g
  modify fun s ↦
    match s.outer with
    | scope :: outer => { s with scope := scope, outer := outer }
    | [] => s
  return result

/-- The parameters and body of a method. An accessor has a fixed number of parameters. -/
def method (start : Nat) (kind : PropertyKind) (isGenerator isAsync : Bool) : Parse Function := do
  let opening ← here
  withReserved isAsync isGenerator do
    let list ← parameters g
    match kind, list with
    | .getter, .mk [] none => pure ()
    | .getter, _ => note opening .getterParameters
    | .setter, .mk [_] none => pure ()
    | .setter, _ => note opening .setterParameters
    | _, _ => pure ()
    let (body, stop) ← functionBlock g isAsync isAsync isGenerator
    return .mk ⟨start, stop⟩ none isAsync isGenerator list body

/-- The optional name of a function or class; a declaration needs one. -/
def declaredName (required : Bool) : Parse (Option Bytes) := do
  bindable
  if ← isAt .identifier then
    let name := (← lexeme).name
    next
    return some name
  else
    if required then discard <| expect .identifier
    return none

/-- A function whose `function` is the current token. The name of a declaration belongs to the
scope around it, that of an expression to the function. -/
def function (declared isAsync : Bool) (start : Nat) : Parse Function := do
  discard <| expect .functionWord
  let isGenerator ← isAt .times
  if isGenerator then next
  let outerName ← if declared then declaredName true else pure none
  withReserved isAsync isGenerator do
    let innerName ← if declared then pure none else declaredName false
    let list ← parameters g
    let (body, stop) ← functionBlock g isAsync isAsync isGenerator
    return .mk ⟨start, stop⟩ (outerName.or innerName) isAsync isGenerator list body

/-- An `async function`, if the token behind the current `async` is `function`. -/
def asyncFunction? (declared : Bool) : Parse (Option Function) := do
  if (← peek) == .functionWord then
    let start ← here
    next
    return some (← function g declared true start)
  else return none

/-- The body of an arrow function and the offset behind it. -/
def arrowBody (isAsync : Bool) : Parse (ArrowBody × Nat) := do
  if ← isAt .leftBrace then
    let (body, stop) ← functionBlock g isAsync isAsync false
    return (.block body, stop)
  else
    let saved ← scope
    if isAsync != saved.inAsync || isAsync != saved.allowAwait then
      inScope fun s ↦ { s with inAsync := isAsync, allowAwait := isAsync, allowYield := false }
      let value ← g.expr .assignment
      inScope fun s ↦
        { s with
          inAsync := saved.inAsync, allowAwait := saved.allowAwait
          allowYield := saved.allowYield }
      return (.expression value, value.stop)
    else
      let value ← g.expr .assignment
      return (.expression value, value.stop)

/-- An arrow function whose parameters have been read. -/
def arrowFunction (start : Nat) (list : Parameters) (isAsync : Bool) : Parse Expr := do
  discard <| expect .arrow
  let (body, stop) ← arrowBody g isAsync
  return .arrow ⟨start, stop⟩ isAsync list body

/-- An arrow function behind `async` with one parameter and no parentheses. -/
def asyncArrow (start : Nat) : Parse Expr := do
  let saved := (← scope).allowYield
  withReserved true saved do
    bindable
    if ← isAt .identifier then
      let name ← identifier
      arrowFunction g start (.mk [.mk name none] none) true
    else
      unexpected (← token)
      next
      badFrom start

end ColonGap.Script
