import ColonGap.Script.Lexer.Escape
import ColonGap.Script.Lexer.Literal
import ColonGap.Script.Lexer.Numeral
import ColonGap.Script.Lexer.Trivia

/-!
# The lexer

`Lexer.scan` reads one token. Whether a slash divides or opens a regular expression is for the
parser to say, so a slash is always a division here and the parser calls back for the rest.

Two flags go along. `insertSemicolon` says that the token just read can end a statement, so a
line break that follows stands for a semicolon. `implicitSemicolon` says that such a line break
stood before the token just read.
-/

namespace ColonGap.Script

/-- The state between two tokens. -/
structure Lexer where
  reader : Reader
  insertSemicolon : Bool
  implicitSemicolon : Bool
deriving Inhabited

/-- Which contextual words are reserved at the moment. -/
structure Reserved where
  await : Bool
  yield : Bool
deriving Inhabited

/-- Whether a token can be the name of a variable. -/
def Reserved.allows (r : Reserved) : Token → Bool
  | .identifier => true
  | .awaitWord => !r.await
  | .yieldWord => !r.yield
  | t => t.isUnreserved

namespace Lexer

/-- Keep an error, unless there is one already. -/
def note (l : Lexer) (offset : Nat) (cause : Cause) : Lexer :=
  { l with reader := l.reader.note offset cause }

/-- Move past `n` characters. -/
def advance (l : Lexer) (n : Nat) : Lexer :=
  { l with reader := l.reader.advance n }

/-- Move past blanks, line breaks and comments. A source may open with a `#!` line. -/
def skipTrivia (l : Lexer) : Lexer :=
  let r := l.reader
  let shebang := r.offset == 0 && (r.rest.take 2).map (·.code) == [35, 33]
  let t := Trivia.measure (if shebang then .line else .between) l.insertSemicolon false r.rest
  let r := r.advance t.count
  let r := if t.unterminated then r.note r.offset .unexpectedEnd else r
  ⟨r, t.insertSemicolon, t.implicitSemicolon⟩

/-- Move past the blanks on the current line. -/
def skipBlanks (l : Lexer) : Lexer :=
  l.advance (l.reader.rest.takeWhile fun c ↦
    !isLineBreak c.code && (isBlank c.code || c.code == 0x85)).length

/-- The lexeme of the given kind between two places. -/
def lexeme (token : Token) (start : Reader) (stop : Reader) : Lexeme :=
  { token := token, start := start.offset, tail := start.tail
    raw := start.tail.take (stop.offset - start.offset), name := [], value := [] }

/-- What a well-formed word is, and whether a line break behind it ends a statement; `none`
leaves that as it was. -/
def classify (reserved : Reserved) (w : Word) : Token × Option Bool :=
  match Token.ofWord? w.name with
  | none => (.identifier, some true)
  | some t =>
    if w.escaped then
      (if reserved.allows t then .identifier else .escapedWord, some true)
    else if t.endsStatement then (t, some true)
    else (t, none)

/-- The word at the current character. The blanks behind `async` are read with it, because before
a line break it is a plain name. -/
def scanWord (reserved : Reserved) (l : Lexer) : Lexeme × Lexer :=
  let w := Word.measure 0 true l.reader.rest
  let next := l.advance w.count
  if w.wellFormed then
    let (token, insert) := classify reserved w
    let x := { lexeme token l.reader next.reader with name := w.name }
    if token == .asyncWord then
      let next := next.skipBlanks
      if next.reader.current?.any isLineBreak then
        ({ x with token := .identifier }, { next with insertSemicolon := true })
      else (x, next)
    else (x, { next with insertSemicolon := insert.getD l.insertSemicolon })
  else
    (lexeme .illegal l.reader l.reader, { next with insertSemicolon := false })

/-- The private name whose `#` is the current character. Its text is that behind the `#`. -/
def scanPrivateName (l : Lexer) : Lexeme × Lexer :=
  let opened := l.advance 1
  let w := Word.measure 0 true opened.reader.rest
  let next := opened.advance w.count
  if w.wellFormed && w.count != 0 then
    ({ lexeme .privateName l.reader next.reader with
        raw := (lexeme .privateName opened.reader next.reader).raw, name := w.name },
      { next with insertSemicolon := true })
  else (lexeme .illegal l.reader l.reader, { next with insertSemicolon := false })

/-- The string whose opening quote is the current character. -/
def scanString (quote : Nat) (l : Lexer) : Lexeme × Lexer :=
  let opened := l.advance 1
  let extent := stringExtent quote .plain opened.reader.rest
  let next := { opened.advance extent.count with insertSemicolon := true }
  if extent.ending == .closed then
    let x := lexeme .string l.reader next.reader
    match Escape.units false ((x.raw.drop 1).dropLast) with
    | .ok units => ({ x with value := units }, next)
    | .error _ => ({ x with token := .illegal }, next)
  else (lexeme .illegal l.reader l.reader, next)

/-- The punctuator at the current character and its length; two points alone are not one. -/
def punctuator? (l : Lexer) : Option (Token × Nat) :=
  let codes := (l.reader.rest.take 4).map (·.code)
  match Token.punctuators.find? fun (s, _) ↦ (s.toList.map (·.toNat)).isPrefixOf codes with
  | none => none
  | some (s, token) =>
    let n := s.length
    match token with
    | .period => if codes.take 2 == [46, 46] then some (.illegal, 2) else some (.period, 1)
    | .arrow => some (if l.implicitSemicolon then .illegal else .arrow, 2)
    | .questionDot =>
      if (codes.drop 2).head?.any isAsciiDigit then some (.question, 1) else some (.questionDot, 2)
    | _ => some (token, n)

/-- Whether a line break behind a punctuator ends a statement. -/
def closesStatement : Token → Bool
  | .rightParen | .rightBracket | .rightBrace | .increment | .decrement => true
  | .slash | .slashAssign => true
  | _ => false

/-- The punctuator at the current character. A character that starts no token is an error. -/
def scanPunctuator (l : Lexer) : Lexeme × Lexer :=
  match l.punctuator? with
  | some (token, n) =>
    let x := lexeme token l.reader l.reader
    (x, { l.advance n with insertSemicolon := closesStatement token })
  | none =>
    let next := l.advance 1
    (lexeme .illegal l.reader l.reader,
      { next.note l.reader.offset (.unexpectedToken .illegal) with insertSemicolon := false })

/-- The numeral that starts with a digit or a point. -/
def scanNumber (l : Lexer) : Lexeme × Lexer :=
  let (token, r) :=
    if l.reader.at? 46 then Numeral.readFraction l.reader.step else Numeral.read l.reader
  (lexeme token l.reader r, { l with reader := r, insertSemicolon := true })

/-- The next token. -/
def scan (reserved : Reserved) (l : Lexer) : Lexeme × Lexer :=
  let l := l.skipTrivia
  match l.reader.rest with
  | [] =>
    (lexeme .endOfInput l.reader l.reader,
      ⟨l.reader, false, l.implicitSemicolon || l.insertSemicolon⟩)
  | c :: rest =>
    if isIdentifierStart c.code then scanWord reserved l
    else if isAsciiDigit c.code then scanNumber l
    else if c.code == 46 && (rest.head?.any fun d ↦ isAsciiDigit d.code) then scanNumber l
    else if c.code == 34 || c.code == 39 then scanString c.code l
    else if c.code == 35 then scanPrivateName l
    else scanPunctuator l

/-- The start of a source. -/
def ofSource (source : Bytes) : Lexer :=
  ⟨.ofSource source, false, false⟩

end Lexer

end ColonGap.Script
