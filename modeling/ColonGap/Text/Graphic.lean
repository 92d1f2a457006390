import ColonGap.Text.Category

/-!
# Characters that print

Letters, marks, numbers, punctuation, symbols and the ASCII space print as themselves in texts.
Other separators, controls and unassigned code points do not.
-/

namespace ColonGap

/-- The categories of characters that print. -/
def graphicCategories : List Category :=
  Category.letters ++ Category.marks ++ Category.numbers ++ Category.punctuation
    ++ Category.symbols

/-- Whether a character prints as itself. -/
def isGraphic (c : Nat) : Bool :=
  (0x20 ≤ c && c ≤ 0x7E) || (0x80 ≤ c && Category.anyHolds graphicCategories c)

end ColonGap
