import ColonGap.Script.Parser.Pattern

/-!
# Lists, templates and regular expressions

Comma expressions, array literals, argument lists, and the two literals whose end only the
parser can ask for, because their opening marks are ordinary punctuators elsewhere.
-/

namespace ColonGap.Script

open Parse

variable (g : Grammar)

/-- The expression that spans from the first of some expressions to the last. -/
def sequenceOf (items : List Expr) : Expr :=
  .sequence ⟨items.head?.bind Expr.start, (items.getLast?.map Expr.stop).getD 0⟩ items

/-- An expression, commas included. -/
def expression : Parse Expr := do
  let first ← g.expr .assignment
  if ← isAt .comma then
    let items ← loop [first] fun items ↦ do
      if ← isAt .comma then
        next
        return .inl ((← g.expr .assignment) :: items)
      else return .inr items.reverse
    return sequenceOf items
  else return first

/-- An operand behind `...`. -/
def spread : Parse Expr := do
  next
  let inner ← g.expr .assignment
  return .spread inner.span inner

/-- An array literal; a missing element is a hole. -/
def arrayLiteral : Parse Expr := do
  let start ← expect .leftBracket
  let elements ← loop ([] : List (Option Expr)) fun elements ↦ do
    match ← token with
    | .rightBracket | .endOfInput => return .inr elements.reverse
    | .comma =>
      next
      return .inl (none :: elements)
    | t =>
      let element ← if t == .ellipsis then spread g else g.expr .assignment
      if !(← isAt .rightBracket) then discard <| expect .comma
      return .inl (some element :: elements)
  let stop ← expect .rightBracket
  return .array ⟨start, stop + 1⟩ elements

/-- The arguments of a call and the offset of the closing parenthesis. -/
def argumentList : Parse (List Expr × Nat) := do
  discard <| expect .leftParen
  let items ← loop ([] : List Expr) fun items ↦ do
    if ← isAt .rightParen then return .inr items.reverse
    let item ← if ← isAt .ellipsis then spread g else g.expr .assignment
    if ← isAt .comma then
      next
      return .inl (item :: items)
    else return .inr (item :: items).reverse
  let stop ← expect .rightParen
  return (items, stop)

/-- The value of a stretch of template text. -/
def cookTemplate (badDigit : Bool) (raw : Bytes) : Except Cause (List UInt16) :=
  if badDigit then .error .badTemplateDigit else Escape.units true raw

/-- One stretch of template text: the text, how it ends, and the offset of its last mark. -/
def templateText (tagged : Bool) : Parse (TemplateText × Ending × Nat) := do
  let before := (← get).lexer.reader
  let t := templateExtent false before.rest
  modify fun s ↦ { s with lexer := { s.lexer.advance t.extent.count with insertSemicolon := true } }
  let after := (← get).lexer.reader
  let marks := match t.extent.ending with | .closed => 1 | .substitution => 2 | .broken => 0
  let raw := Escape.normalizeBreaks (before.tail.take (after.offset - marks - before.offset))
  if t.extent.ending == .broken then note after.behind .unexpectedEnd
  match cookTemplate t.badDigit raw with
  | .ok units => return (⟨raw, some units⟩, t.extent.ending, after.offset - 1)
  | .error cause =>
    if !tagged then note after.behind cause
    return (⟨raw, none⟩, t.extent.ending, after.offset - 1)

/-- A template literal. It starts at its opening backtick even if it has a tag. -/
def template (tag : Option Expr) : Parse Expr := do
  let start ← here
  loop (([], []) : List TemplateText × List Expr) fun (texts, items) ↦ do
    let (text, ending, stop) ← templateText tag.isSome
    next
    let texts := text :: texts
    if ending == .substitution then
      let item ← expression g
      if !(← isAt .rightBrace) then unexpected (← token)
      return .inl (texts, item :: items)
    else
      return .inr (.template ⟨start, stop + 1⟩ tag texts.reverse items.reverse)

/-- A regular expression whose opening slash, or `/=`, is the current token. Flags are a name
that follows; with flags the literal ends one byte before the character that is current after
the token behind them. -/
def regex : Parse Expr := do
  let x ← lexeme
  let (count, ending) := regexExtent .plain (← get).lexer.reader.rest
  modify fun s ↦ { s with lexer := s.lexer.advance count }
  if ending == .missingSlash then note x.start .unterminatedRegex
  let reader := (← get).lexer.reader
  let body := x.tail.take (reader.offset - x.start)
  let pattern := if ending == .closed then (body.drop 1).dropLast else []
  next
  if !(reader.current?.any isBlank) && (← isAt .identifier) then
    let flags := (← lexeme).raw
    next
    let stop := (← get).lexer.reader.offset - 1
    let raw := x.tail.take (stop - x.start)
    return .regex ⟨x.start, x.start + raw.length⟩ raw pattern flags
  else return .regex ⟨x.start, x.start + body.length⟩ body pattern []

/-- The numeral that is the current token. -/
def numeral : Parse Expr := do
  let x ← lexeme
  next
  if !Numeral.denotes x.raw then note x.start .illegalNumber
  return .number ⟨x.start, x.start + x.raw.length⟩ x.raw

end ColonGap.Script
