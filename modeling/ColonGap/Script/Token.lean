import ColonGap.Text.Bytes

/-!
# Tokens of a script

A token is a kind; its text, value and place are kept beside it in a `Lexeme`. The kinds fall
into three groups: literals and names, reserved and contextual words, and punctuators. The
texts of words and punctuators are given once, as two tables, and both the lexer and the error
messages read those tables.
-/

namespace ColonGap.Script

/-- The kind of a token. -/
inductive Token where
  -- names, literals and the ends of the input
  | endOfInput | illegal | identifier | privateName | number | string | boolean | null
  /-- A word that no construct uses: `enum`, `export`, `import`. -/
  | reservedWord
  /-- A reserved word that is spelt with an escape. -/
  | escapedWord
  -- reserved words
  | ifWord | inWord | doWord | varWord | forWord | newWord | tryWord | thisWord | elseWord
  | caseWord | voidWord | withWord | whileWord | breakWord | catchWord | throwWord | returnWord
  | typeofWord | deleteWord | switchWord | defaultWord | finallyWord | functionWord
  | continueWord | debuggerWord | instanceofWord | constWord | classWord | extendsWord
  | superWord
  -- words that are reserved in some places only
  | letWord | staticWord | asyncWord | awaitWord | yieldWord
  -- brackets and separators
  | leftBrace | rightBrace | leftParen | rightParen | leftBracket | rightBracket
  | comma | semicolon | colon | period | ellipsis | question | questionDot | arrow | backtick
  -- operators
  | plus | minus | times | power | slash | remainder
  | bitAnd | bitOr | bitXor | bitNot | shiftLeft | shiftRight | shiftRightUnsigned
  | logicalAnd | logicalOr | coalesce | not | increment | decrement
  | equal | strictEqual | notEqual | strictNotEqual
  | less | lessEqual | greater | greaterEqual
  -- assignments
  | assign | plusAssign | minusAssign | timesAssign | powerAssign | slashAssign
  | remainderAssign | bitAndAssign | bitOrAssign | bitXorAssign | shiftLeftAssign
  | shiftRightAssign | shiftRightUnsignedAssign | logicalAndAssign | logicalOrAssign
  | coalesceAssign
deriving DecidableEq, Repr, Inhabited

namespace Token

/-- The words that are tokens of their own. -/
def words : List (String × Token) :=
  [("if", ifWord), ("in", inWord), ("do", doWord), ("var", varWord), ("for", forWord),
    ("new", newWord), ("try", tryWord), ("this", thisWord), ("else", elseWord),
    ("case", caseWord), ("void", voidWord), ("with", withWord), ("while", whileWord),
    ("break", breakWord), ("catch", catchWord), ("throw", throwWord), ("return", returnWord),
    ("typeof", typeofWord), ("delete", deleteWord), ("switch", switchWord),
    ("default", defaultWord), ("finally", finallyWord), ("function", functionWord),
    ("continue", continueWord), ("debugger", debuggerWord), ("instanceof", instanceofWord),
    ("const", constWord), ("class", classWord), ("extends", extendsWord), ("super", superWord),
    ("let", letWord), ("static", staticWord), ("async", asyncWord), ("await", awaitWord),
    ("yield", yieldWord), ("true", boolean), ("false", boolean), ("null", null),
    ("enum", reservedWord), ("export", reservedWord), ("import", reservedWord)]

/-- The punctuators, a longer one before each of its beginnings. -/
def punctuators : List (String × Token) :=
  [(">>>=", shiftRightUnsignedAssign), ("...", ellipsis), ("===", strictEqual),
    ("!==", strictNotEqual), ("**=", powerAssign), ("<<=", shiftLeftAssign),
    (">>=", shiftRightAssign), (">>>", shiftRightUnsigned), ("&&=", logicalAndAssign),
    ("||=", logicalOrAssign), ("??=", coalesceAssign), ("=>", arrow), ("==", equal),
    ("!=", notEqual), ("<=", lessEqual), (">=", greaterEqual), ("&&", logicalAnd),
    ("||", logicalOr), ("??", coalesce), ("?.", questionDot), ("++", increment),
    ("--", decrement), ("**", power), ("<<", shiftLeft), (">>", shiftRight),
    ("+=", plusAssign), ("-=", minusAssign), ("*=", timesAssign), ("/=", slashAssign),
    ("%=", remainderAssign), ("&=", bitAndAssign), ("|=", bitOrAssign), ("^=", bitXorAssign),
    ("\x7b", leftBrace), ("\x7d", rightBrace), ("(", leftParen), (")", rightParen),
    ("[", leftBracket), ("]", rightBracket), (",", comma), (";", semicolon), (":", colon),
    (".", period), ("?", question), ("`", backtick), ("+", plus), ("-", minus), ("*", times),
    ("/", slash), ("%", remainder), ("&", bitAnd), ("|", bitOr), ("^", bitXor), ("~", bitNot),
    ("!", not), ("<", less), (">", greater), ("=", assign)]

/-- The text of a token in an error message. -/
def text (t : Token) : String :=
  match t with
  | illegal => "ILLEGAL"
  | privateName => "PRIVATE_IDENTIFIER"
  | _ =>
    match (words ++ punctuators).find? (·.2 == t) with
    | some (s, _) => s
    | none => ""

/-- The word token that a name spells, if it spells one. -/
def ofWord? (name : Bytes) : Option Token :=
  (words.find? fun (s, _) ↦ utf8 s == name).map (·.2)

/-- The words that are plain names except where the context reserves them. -/
def isUnreserved : Token → Bool
  | letWord | staticWord | asyncWord | awaitWord | yieldWord => true
  | _ => false

/-- Whether the token is spelt like a name, reserved or not. -/
def isName : Token → Bool
  | identifier | reservedWord | escapedWord | boolean | null => true
  | ifWord | inWord | doWord | varWord | forWord | newWord | tryWord | thisWord | elseWord => true
  | caseWord | voidWord | withWord | whileWord | breakWord | catchWord | throwWord => true
  | returnWord | typeofWord | deleteWord | switchWord | defaultWord | finallyWord => true
  | functionWord | continueWord | debuggerWord | instanceofWord | constWord | classWord => true
  | extendsWord | superWord | letWord | staticWord | asyncWord | awaitWord | yieldWord => true
  | _ => false

/-- Whether a line break after the word ends a statement. -/
def endsStatement : Token → Bool
  | boolean | null | thisWord | breakWord | throwWord | yieldWord | returnWord | continueWord => true
  | debuggerWord => true
  | _ => false

end Token

/-- A token with its place, its source text and what that text stands for. -/
structure Lexeme where
  /-- The kind of the token. -/
  token : Token
  /-- The offset of its first byte. -/
  start : Nat
  /-- The text from its first byte to the end of the source. -/
  tail : Bytes
  /-- Its source text; empty for punctuators. -/
  raw : Bytes
  /-- The name that an identifier or word spells, escapes resolved. -/
  name : Bytes
  /-- The value of a string, in UTF-16 units. -/
  value : List UInt16
deriving Inhabited

end ColonGap.Script
