import ColonGap.Script.Parser.Statement

/-!
# Parsing a script

`parse` reads a whole source. It accepts exactly if no error was found, and otherwise gives the
first error.
-/

namespace ColonGap.Script

open Parse

/-- A production for which no depth is left. -/
def tooDeep {α : Type} [Inhabited α] : Parse α := do
  note (← get).lexer.reader.offset .tooDeep
  return default

/-- The recursive productions, down to a depth. -/
def grammar : Nat → Grammar
  | 0 => ⟨fun _ ↦ tooDeep, tooDeep⟩
  | depth + 1 =>
    { expr := fun goal ↦
        match goal with
        | .assignment => assignment (grammar depth)
        | .unary => unaryExpression (grammar depth)
        | .power => powerExpression (grammar depth)
        | .relational => relational (grammar depth)
        | .leftHandSide => leftHandSide (grammar depth)
        | .call => callExpression (grammar depth)
        | .object => objectLiteral (grammar depth)
      -- The state is named, so that the productions below are built only when they are called.
      stmt := fun s ↦ statement (grammar depth) s }

/-- The statements of a script up to the end of the source. -/
def program (g : Grammar) : Parse Program := do
  next
  loop ([] : List Stmt) fun items ↦ do
    match ← token with
    | .endOfInput => return .inr items.reverse
    | _ =>
      inScope fun s ↦ { s with allowLet := true }
      return .inl ((← g.stmt) :: items)

/-- The number of characters of a source that are no blanks. No token is made of blanks alone. -/
def weight (source : Bytes) : Nat :=
  ((Utf8.scalars source).filter fun c ↦ !isBlank c.code).length

/-- The state before the first token. Every nesting of the grammar takes a character that is no
blank, and a loop takes at most some ten rounds without moving on. -/
def initialState (source : Bytes) : ParserState :=
  { source := source, lexer := .ofSource source, lexeme := default, stoppedAt := 0, stops := 0
    scope := {}, outer := [], budget := 16 * (weight source + 2) }

/-- The statements of a source, or its first syntax error. -/
def parse (source : Bytes) : Except SyntaxError Program :=
  let (statements, s) := (program (grammar (8 * (weight source + 2)))).run (initialState source)
  match s.lexer.reader.error with
  | some error => .error error
  | none => .ok statements

end ColonGap.Script
