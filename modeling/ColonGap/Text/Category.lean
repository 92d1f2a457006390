import ColonGap.Text.Category.Invisibles
import ColonGap.Text.Category.Letters
import ColonGap.Text.Category.Marks
import ColonGap.Text.Category.Numbers
import ColonGap.Text.Category.Punctuation
import ColonGap.Text.Category.Symbols

/-!
# General categories

Every assigned code point has exactly one general category. The tables of the categories are
kept by groups; `Category.ranges` names the table of each, and the groups are lists of
categories.
-/

namespace ColonGap

/-- What kind of character an assigned code point is. -/
inductive Category where
  -- letters
  | uppercaseLetter | lowercaseLetter | titlecaseLetter | modifierLetter | otherLetter
  -- marks
  | nonspacingMark | spacingMark | enclosingMark
  -- numbers
  | decimalNumber | letterNumber | otherNumber
  -- punctuation
  | connector | dash | opening | closing | initialQuote | finalQuote | otherPunctuation
  -- symbols
  | mathSymbol | currencySymbol | modifierSymbol | otherSymbol
  -- separators
  | space | lineSeparator | paragraphSeparator
  -- everything else
  | control | format | surrogate | privateUse
deriving DecidableEq, Repr

namespace Category

/-- The code points of a category. -/
def ranges : Category → Ranges
  | uppercaseLetter => uppercaseLetters
  | lowercaseLetter => lowercaseLetters
  | titlecaseLetter => titlecaseLetters
  | modifierLetter => modifierLetters
  | otherLetter => otherLetters
  | nonspacingMark => nonspacingMarks
  | spacingMark => spacingMarks
  | enclosingMark => enclosingMarks
  | decimalNumber => decimalNumbers
  | letterNumber => letterNumbers
  | otherNumber => otherNumbers
  | connector => connectors
  | dash => dashes
  | opening => openings
  | closing => closings
  | initialQuote => initialQuotes
  | finalQuote => finalQuotes
  | otherPunctuation => otherPunctuationMarks
  | mathSymbol => mathSymbols
  | currencySymbol => currencySymbols
  | modifierSymbol => modifierSymbols
  | otherSymbol => otherSymbols
  | space => spaces
  | lineSeparator => lineSeparators
  | paragraphSeparator => paragraphSeparators
  | control => controls
  | format => formats
  | surrogate => surrogates
  | privateUse => privateUseAreas

/-- The letters. -/
def letters : List Category :=
  [uppercaseLetter, lowercaseLetter, titlecaseLetter, modifierLetter, otherLetter]

/-- The letters that have a case. -/
def casedLetters : List Category :=
  [uppercaseLetter, lowercaseLetter, titlecaseLetter]

/-- The marks. -/
def marks : List Category :=
  [nonspacingMark, spacingMark, enclosingMark]

/-- The numbers. -/
def numbers : List Category :=
  [decimalNumber, letterNumber, otherNumber]

/-- The punctuation marks. -/
def punctuation : List Category :=
  [connector, dash, opening, closing, initialQuote, finalQuote, otherPunctuation]

/-- The symbols. -/
def symbols : List Category :=
  [mathSymbol, currencySymbol, modifierSymbol, otherSymbol]

/-- The separators. -/
def separators : List Category :=
  [space, lineSeparator, paragraphSeparator]

/-- Controls and other code points that stand for no character of a text. -/
def others : List Category :=
  [control, format, surrogate, privateUse]

/-- All categories. -/
def all : List Category :=
  letters ++ marks ++ numbers ++ punctuation ++ symbols ++ separators ++ others

/-- Whether a code point is of one of the categories. -/
def anyHolds (categories : List Category) (code : Nat) : Bool :=
  categories.any fun category ↦ category.ranges.contains code

/-- Whether a code point has a category at all. -/
def isAssigned (code : Nat) : Bool :=
  anyHolds all code

end Category

end ColonGap
