import ColonGap.Yaml.Lexer.Basic

/-!
# What stands between tokens

Spacing, line ends and comments. A tab counts as spacing only where no key may start, so that it
cannot indent a block; between comments it always does. A line may start with a byte order mark,
which is looked for at the start of the window and not at the start of the line.
-/

namespace ColonGap.Yaml

namespace Lex

/-- How far ahead a comment is looked for. -/
def commentReach : Nat := 512

/-- The number of characters before the next comment, if only characters for which a test holds
come before it and it is within reach. -/
def beforeComment? (test : Nat → Bool) : Lex (Option Nat) := do
  let ahead ← glance commentReach test
  let n := (ahead.takeWhile test).length
  return if ahead.getD n 0 == 35 then some n else none

/-- Move past `n` characters, of which some end lines. -/
def passTo (index : Nat) : (fuel : Nat) → Lex Unit
  | 0 => pure ()
  | fuel + 1 => do
    let s ← get
    if s.mark.index < index then
      if endsLine (s.rest.headD 0) then discard lineEnd else advance
      passTo index fuel

/-- Move past a comment and the comments on the lines below it, up to the end of the last one's
line. -/
def comments : (fuel : Nat) → Lex Unit
  | 0 => pure ()
  | fuel + 1 => do
    skipLine
    match ← beforeComment? fun c ↦ isSpacing c || c == 10 || c == 13 with
    | some n =>
      passTo ((← here).index + n) (n + 1)
      comments fuel
    | none => pure ()

/-- Move to the next token. -/
def toToken : (fuel : Nat) → Lex Unit
  | 0 => pure ()
  | fuel + 1 => do
    need 1
    if (← here).column == 0 && (← get).window.startsWithMark then advance
    let s ← get
    discard <| takeWhile fun c ↦ c == 32 || (c == 9 && (0 < s.flowLevel || !s.keyAllowed))
    if (← peek) == 35 then comments (← rounds)
    if endsLine (← peek) then
      discard lineEnd
      if (← get).flowLevel == 0 then allowKey true
      toToken fuel

/-- Move past a comment that follows a token on its line. -/
def lineComment : Lex Unit := do
  if !(← get).newLine then
    match ← beforeComment? isSpacing with
    | some n =>
      advanceBy 1 n
      skipLine
    | none => pure ()

end Lex

end ColonGap.Yaml
