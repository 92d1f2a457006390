import ColonGap.Script.Parser.Function

/-!
# Object literals and classes

Both are lists of entries with a key: a name, a string, a number, a private name or an
expression in square brackets.
-/

namespace ColonGap.Script

open Parse

variable (g : Grammar)

/-- A key of an object or class. -/
structure Key where
  /-- The token that is the key; none for a computed key. -/
  token : Option Token
  raw : Bytes
  name : List UInt16
  bytes : Bytes
  value : Expr

namespace Key

/-- Whether the key is an expression in square brackets. -/
def isComputed (k : Key) : Bool :=
  k.token.isNone

/-- Whether the key is a private name. -/
def isPrivate (k : Key) : Bool :=
  k.token == some .privateName

/-- Whether the key spells a name, as an identifier or a string. -/
def spells (k : Key) (name : String) : Bool :=
  !k.isComputed && k.name == Utf16.units (utf8 name)

/-- Whether the source text of the key is this word. -/
def isWord (k : Key) (word : String) : Bool :=
  !k.isComputed && k.raw == utf8 word

end Key

/-- The key at the current token. A token that cannot be a key is passed before it is
reported. -/
def propertyKey : Parse (Option Key) := do
  let x ← lexeme
  if x.token == .leftBracket then
    next
    let value ← g.expr .assignment
    discard <| expect .rightBracket
    return some ⟨none, [], [], [], value⟩
  next
  let span : Span := ⟨x.start, x.start + x.raw.length⟩
  match x.token with
  | .string => return some ⟨some .string, x.raw, x.value, [], .string span x.raw x.value⟩
  | .number =>
    if Numeral.denotes x.raw then
      return some ⟨some .number, x.raw, [], [], .number span x.raw⟩
    else
      note x.start .illegalNumber
      return none
  | .privateName =>
    return some ⟨some .privateName, x.raw, Utf16.units x.name, x.name,
      .privateName (nameSpan x.start x.name) x.name⟩
  | t =>
    if t.isName then
      let units := Utf16.units x.name
      return some ⟨some t, x.raw, units, x.name, .string span x.raw units⟩
    else
      unexpected t
      return none

/-- An entry of an object literal. -/
def property : Parse (Option Property) := do
  if ← isAt .ellipsis then
    next
    return some (.spread (← g.expr .assignment))
  let start ← here
  let isGenerator ← isAt .times
  if isGenerator then next
  match ← propertyKey g with
  | none => return none
  | some key =>
    if key.isPrivate then
      discard <| expect .colon
      return some (.keyed .value false key.value (← g.expr .assignment))
    else if isGenerator then
      let body ← method g start .method true false
      return some (.keyed .method key.isComputed key.value (.function body))
    else
      propertyTail start key (← token)
where
  /-- What follows a key that is no private name. -/
  propertyTail (start : Nat) (key : Key) (t : Token) : Parse (Option Property) := do
    if t == .leftParen then
      let body ← method g start .method false false
      return some (.keyed .method key.isComputed key.value (.function body))
    else if t == .comma || t == .rightBrace || t == .assign then
      if ← canBind (key.token.getD .illegal) then
        let span := nameSpan start key.bytes
        if t == .assign then
          next
          return some (.short span key.bytes (some (← g.expr .assignment)))
        else return some (.short span key.bytes none)
      else
        unexpected t
        keyedValue key
    else if t != .colon && key.isWord "get" then accessor start .getter false
    else if t != .colon && key.isWord "set" then accessor start .setter false
    else if t != .colon && key.token == some .asyncWord then accessor start .method true
    else keyedValue key
  /-- An accessor or an asynchronous method. -/
  accessor (start : Nat) (kind : PropertyKind) (isAsync : Bool) : Parse (Option Property) := do
    match ← propertyKey g with
    | none => return none
    | some key =>
      let body ← method g start kind false isAsync
      return some (.keyed kind key.isComputed key.value (.function body))
  /-- A colon and a value. -/
  keyedValue (key : Key) : Parse (Option Property) := do
    discard <| expect .colon
    return some (.keyed .value key.isComputed key.value (← g.expr .assignment))

/-- An object literal. -/
def objectLiteral : Parse Expr := do
  let start ← expect .leftBrace
  let properties ← loop ([] : List Property) fun properties ↦ do
    match ← token with
    | .rightBrace | .endOfInput => return .inr properties.reverse
    | _ =>
      let properties := (← property g).toList ++ properties
      if ← isAt .rightBrace then return .inr properties.reverse
      else
        discard <| expect .comma
        return .inl properties
  let stop ← expect .rightBrace
  return .object ⟨start, stop + 1⟩ properties

/-- The modifiers of a class member. -/
structure Modifiers where
  isStatic : Bool
  kind : Option PropertyKind
  isAsync : Bool
  isGenerator : Bool

/-- Report what a method may not be called. -/
def checkMethodName (m : Modifiers) (kind : PropertyKind) (key : Key) : Parse Unit := do
  if key.spells "constructor" then
    if m.isStatic then
      if key.isPrivate then note key.value.start .constructorPrivate
    else if kind != .method then note key.value.start .constructorAccessor
    else if m.isAsync then note key.value.start .constructorAsync
    else if m.isGenerator then note key.value.start .constructorGenerator

/-- The modifiers before the key of a class member, `static` apart. -/
def modifiers (isStatic : Bool) : Parse Modifiers := do
  let x ← lexeme
  let isGet := x.raw == utf8 "get"
  let isSet := x.raw == utf8 "set"
  let (kind, isAsync) ←
    if isGet || isSet || x.token == .asyncWord then
      let t ← peek
      if t != .semicolon && t != .leftParen then
        next
        if isGet then pure (some PropertyKind.getter, false)
        else if isSet then pure (some PropertyKind.setter, false)
        else pure (some PropertyKind.method, true)
      else pure (none, false)
    else pure (none, false)
  if (← isAt .times) && (kind.isNone || kind == some .method) then
    next
    return ⟨isStatic, some .method, isAsync, true⟩
  else return ⟨isStatic, kind, isAsync, false⟩

/-- A member of a class after `static`. The result is `none` if there is no key; the flag tells
whether the class breaks off. -/
def classMember (isStatic : Bool) : Parse (Option ClassElement × Bool) := do
  let start ← here
  let m ← modifiers isStatic
  match ← propertyKey g with
  | none => return (none, false)
  | some key =>
    if isStatic && !key.isPrivate && key.spells "prototype" then
      note key.value.start .staticPrototype
    let kind ← if m.kind.isNone && (← isAt .leftParen) then pure (some PropertyKind.method)
      else pure m.kind
    match kind with
    | some kind =>
      checkMethodName m kind key
      let body ← method g start kind m.isGenerator m.isAsync
      return (some (.method kind isStatic key.isComputed key.value body), false)
    | none =>
      if key.spells "constructor" then note key.value.start .constructorField
      let initializer ← if ← isAt .assign then
          next
          pure (some (← expression g))
        else pure none
      let t ← token
      if !(← implicitSemicolon) && t != .semicolon && t != .rightBrace then
        unexpected t
        return (none, true)
      else return (some (.field isStatic key.isComputed key.value initializer), false)

/-- Whether the word `static`, which is the current token, is a modifier. -/
def staticModifier : Parse Bool := do
  match ← peek with
  | .assign | .semicolon | .rightBrace | .leftParen => return false
  | _ => return true

/-- A class whose `class` is the current token. -/
def classBody (declared : Bool) : Parse Class := do
  if declared && !(← scope).allowLet then unexpected .classWord
  let start ← expect .classWord
  let name ← declaredName declared
  let superclass ← if ← isAt .leftBrace then pure none
    else
      discard <| expect .extendsWord
      pure (some (← g.expr .call))
  discard <| expect .leftBrace
  let elements ← loop ([] : List ClassElement) fun elements ↦ do
    match ← token with
    | .rightBrace | .endOfInput => return .inr elements.reverse
    | .semicolon =>
      next
      return .inl elements
    | t =>
      let isStatic ← if t == .staticWord then staticModifier else pure false
      if isStatic then next
      if isStatic && (← isAt .leftBrace) then
        let (body, _) ← functionBlock g false true false
        return .inl (.staticBlock body :: elements)
      else
        let (element, broken) ← classMember g isStatic
        let elements := element.toList ++ elements
        if broken then return .inr elements.reverse else return .inl elements
  let stop ← expect .rightBrace
  return .mk ⟨start, stop + 1⟩ name superclass elements

end ColonGap.Script
