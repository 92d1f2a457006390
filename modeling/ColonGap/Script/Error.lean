import ColonGap.Script.Token
import ColonGap.Text.Directive
import ColonGap.Text.Quoted

/-!
# Syntax errors

What can be wrong with a script, and how it is worded. An error is a cause and the offset it is
reported at; `Cause.message` is the only place that knows the wording. A message that shows a
piece of the source is read as a format with no operands, so percent signs in that piece leave
their mark.
-/

namespace ColonGap.Script

/-- Why a script is refused. -/
inductive Cause where
  | unexpectedEnd
  | unexpectedToken (token : Token)
  /-- `true`, `false` or `null` where it cannot stand, by its text. -/
  | unexpectedLiteral (raw : Bytes)
  | unexpectedIdentifier
  | unexpectedReservedWord
  | unexpectedNumber
  | unexpectedString
  | escapedKeyword
  | malformedCharacter
  | doubledSeparator
  | illegalNumber
  | unterminatedRegex
  | badTemplateDigit
  | octalEscape
  | shortEscape (letter : UInt8) (found : Bytes) (size : Nat)
  | badEscape (letter : UInt8) (found : Bytes)
  | emptyEscape (letter : UInt8)
  | undefinedCodePoint (found : Bytes)
  | unterminatedEscape (found : Bytes)
  | illegalReturn
  | illegalBreak
  | illegalContinue
  | undefinedLabel (name : Bytes)
  | duplicateLabel (name : Bytes)
  | newlineAfterThrow
  | tryAlone
  | duplicateDefault
  | badAssignmentTarget
  | badLoopTarget
  | loopInitializer
  | missingInitializer
  | lexicalAlone
  | malformedArrow
  | badDestructuringTarget
  | badBindingTarget
  | badBindingRest
  | restNotLast
  | commaAfterRest
  | getterParameters
  | setterParameters
  | constructorAccessor
  | constructorAsync
  | constructorGenerator
  | constructorPrivate
  | constructorField
  | staticPrototype
  | straySuper
  | unaryPower
  | mixedCoalesce
  | templateOnChain
  | yieldInParameters
  | awaitInParameters
  /-- The nesting is deeper than the parser follows. -/
  | tooDeep
deriving DecidableEq, Repr

/-- The wording of a cause. -/
def Cause.message : Cause → Bytes
  | unexpectedEnd => utf8 "Unexpected end of input"
  | unexpectedToken t => utf8 "Unexpected token " ++ utf8 t.text
  | unexpectedLiteral raw => utf8 "Unexpected token " ++ raw
  | unexpectedIdentifier => utf8 "Unexpected identifier"
  | unexpectedReservedWord => utf8 "Unexpected reserved word"
  | unexpectedNumber => utf8 "Unexpected number"
  | unexpectedString => utf8 "Unexpected string"
  | escapedKeyword => utf8 "Keyword must not contain escaped characters"
  | malformedCharacter => utf8 "Invalid UTF-8 character"
  | doubledSeparator => utf8 "Only one underscore is allowed as numeric separator"
  | illegalNumber => utf8 "Illegal numeric literal"
  | unterminatedRegex => utf8 "Invalid regular expression: missing /"
  | badTemplateDigit => utf8 "\\8 and \\9 are not allowed in template strings."
  | octalEscape => utf8 "Octal escape sequences are not allowed in this context"
  | shortEscape letter found size =>
    Directive.unfilled <|
      utf8 "invalid escape: \\" ++ [letter] ++ utf8 ": len(" ++ quoted found ++ utf8 ") != "
        ++ decimal size
  | badEscape letter found =>
    Directive.unfilled <| utf8 "invalid escape: \\" ++ [letter] ++ utf8 ": " ++ quoted found
  | emptyEscape letter => utf8 "invalid escape: \\" ++ [letter]
  | undefinedCodePoint found => utf8 "undefined Unicode code-point: " ++ quoted found
  | unterminatedEscape found => utf8 "unterminated \\u\x7b: " ++ quoted found
  | illegalReturn => utf8 "Illegal return statement"
  | illegalBreak => utf8 "Illegal break statement"
  | illegalContinue => utf8 "Illegal continue statement"
  | undefinedLabel name => utf8 "Undefined label '" ++ name ++ utf8 "'"
  | duplicateLabel name => utf8 "Label '" ++ name ++ utf8 "' already exists"
  | newlineAfterThrow => utf8 "Illegal newline after throw"
  | tryAlone => utf8 "Missing catch or finally after try"
  | duplicateDefault => utf8 "Already saw a default in switch"
  | badAssignmentTarget => utf8 "Invalid left-hand side in assignment"
  | badLoopTarget => utf8 "Invalid left-hand side in for-in or for-of"
  | loopInitializer => utf8 "for-in loop variable declaration may not have an initializer"
  | missingInitializer => utf8 "Missing initializer in destructuring declaration"
  | lexicalAlone => utf8 "Lexical declaration cannot appear in a single-statement context"
  | malformedArrow => utf8 "Malformed arrow function parameter list"
  | badDestructuringTarget => utf8 "Invalid destructuring assignment target"
  | badBindingTarget => utf8 "Invalid destructuring binding target"
  | badBindingRest => utf8 "Invalid binding rest"
  | restNotLast => utf8 "Rest element must be last element"
  | commaAfterRest => utf8 "Comma is not allowed here"
  | getterParameters => utf8 "Getter must not have any formal parameters."
  | setterParameters => utf8 "Setter must have exactly one formal parameter."
  | constructorAccessor => utf8 "Class constructor may not be an accessor"
  | constructorAsync => utf8 "Class constructor may not be an async method"
  | constructorGenerator => utf8 "Class constructor may not be a generator"
  | constructorPrivate => utf8 "Class constructor may not be a private method"
  | constructorField => utf8 "Classes may not have a field named 'constructor'"
  | staticPrototype => utf8 "Classes may not have a static property named 'prototype'"
  | straySuper => utf8 "'super' keyword unexpected here"
  | unaryPower =>
    utf8 "Unary operator used immediately before exponentiation expression. "
      ++ utf8 "Parenthesis must be used to disambiguate operator precedence"
  | mixedCoalesce =>
    utf8 "Logical expressions and coalesce expressions cannot be mixed. "
      ++ utf8 "Wrap either by parentheses"
  | templateOnChain => utf8 "Invalid template literal on optional chain"
  | yieldInParameters => utf8 "Yield expression not allowed in formal parameter"
  | awaitInParameters =>
    utf8 "Illegal await-expression in formal parameters of async function"
  | tooDeep => utf8 "The source is nested too deeply"

/-- A syntax error: what is wrong, and the offset it is reported at. -/
structure SyntaxError where
  offset : Nat
  cause : Cause
deriving DecidableEq, Repr

end ColonGap.Script
