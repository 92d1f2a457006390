import ColonGap.RegExp.Basic
import ColonGap.Text.Category
import ColonGap.Text.WritingSystem

/-!
# Properties of characters by name

An expression can name a general category, a group of categories or a writing system. Names are
compared without regard to case, and without blanks, underscores and hyphens.
-/

namespace ColonGap

namespace RegExp

/-- A set of characters, by a test on code points. -/
abbrev CharSet := Nat → Bool

/-- The categories and groups of categories, by their short and their long names. -/
def categoryNames : List (String × List Category) :=
  [("L", Category.letters), ("Letter", Category.letters), ("LC", Category.casedLetters),
    ("Cased_Letter", Category.casedLetters), ("M", Category.marks), ("Mark", Category.marks),
    ("Combining_Mark", Category.marks), ("N", Category.numbers), ("Number", Category.numbers),
    ("P", Category.punctuation), ("Punctuation", Category.punctuation), ("S", Category.symbols),
    ("Symbol", Category.symbols), ("Z", Category.separators), ("Separator", Category.separators),
    ("Lu", [.uppercaseLetter]), ("Uppercase_Letter", [.uppercaseLetter]),
    ("Ll", [.lowercaseLetter]), ("Lowercase_Letter", [.lowercaseLetter]),
    ("Lt", [.titlecaseLetter]), ("Titlecase_Letter", [.titlecaseLetter]),
    ("Lm", [.modifierLetter]), ("Modifier_Letter", [.modifierLetter]), ("Lo", [.otherLetter]),
    ("Other_Letter", [.otherLetter]), ("Mn", [.nonspacingMark]),
    ("Nonspacing_Mark", [.nonspacingMark]), ("Mc", [.spacingMark]),
    ("Spacing_Mark", [.spacingMark]), ("Me", [.enclosingMark]),
    ("Enclosing_Mark", [.enclosingMark]), ("Nd", [.decimalNumber]),
    ("Decimal_Number", [.decimalNumber]), ("Nl", [.letterNumber]),
    ("Letter_Number", [.letterNumber]), ("No", [.otherNumber]), ("Other_Number", [.otherNumber]),
    ("Pc", [.connector]), ("Connector_Punctuation", [.connector]), ("Pd", [.dash]),
    ("Dash_Punctuation", [.dash]), ("Ps", [.opening]), ("Open_Punctuation", [.opening]),
    ("Pe", [.closing]), ("Close_Punctuation", [.closing]), ("Pi", [.initialQuote]),
    ("Initial_Punctuation", [.initialQuote]), ("Pf", [.finalQuote]),
    ("Final_Punctuation", [.finalQuote]), ("Po", [.otherPunctuation]),
    ("Other_Punctuation", [.otherPunctuation]), ("Sm", [.mathSymbol]),
    ("Math_Symbol", [.mathSymbol]), ("Sc", [.currencySymbol]),
    ("Currency_Symbol", [.currencySymbol]), ("Sk", [.modifierSymbol]),
    ("Modifier_Symbol", [.modifierSymbol]), ("So", [.otherSymbol]),
    ("Other_Symbol", [.otherSymbol]), ("Zs", [.space]), ("Space_Separator", [.space]),
    ("Zl", [.lineSeparator]), ("Line_Separator", [.lineSeparator]), ("Zp", [.paragraphSeparator]),
    ("Paragraph_Separator", [.paragraphSeparator]), ("Cc", [.control]), ("Control", [.control]),
    ("Cf", [.format]), ("Format", [.format]), ("Cs", [.surrogate]), ("Surrogate", [.surrogate]),
    ("Co", [.privateUse]), ("Private_Use", [.privateUse]), ("cntrl", [.control]),
    ("digit", [.decimalNumber]), ("punct", Category.punctuation)]

/-- A name as it is compared: in lower case, without blanks, underscores and hyphens. -/
def looseName (name : List Nat) : List Nat :=
  (name.filter fun c ↦ c != 32 && c != 95 && c != 45).map fun c ↦
    if 65 ≤ c && c ≤ 90 then c + 32 else c

/-- The entry that a loose name stands for. -/
def findByName? {α : Type} (table : List (String × α)) (name : List Nat) : Option α :=
  (table.find? fun entry ↦ looseName (entry.1.toList.map (·.toNat)) == name).map (·.2)

/-- The sets that are no category and no writing system. What has no category belongs to the
group of everything else. -/
def generalSets : List (String × CharSet) :=
  [("Any", fun _ ↦ true), ("ASCII", (· < 0x80)), ("Assigned", Category.isAssigned),
    ("Cn", fun c ↦ !Category.isAssigned c), ("Unassigned", fun c ↦ !Category.isAssigned c),
    ("C", fun c ↦ Category.anyHolds Category.others c || !Category.isAssigned c),
    ("Other", fun c ↦ Category.anyHolds Category.others c || !Category.isAssigned c)]

/-- The characters with the property of the given name. -/
def property? (name : List Nat) : Option CharSet :=
  let name := looseName name
  (findByName? generalSets name)
    <|> (findByName? categoryNames name).map Category.anyHolds
    <|> (findByName? writingSystems name).map Ranges.contains

end RegExp

end ColonGap
