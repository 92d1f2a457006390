import ColonGap.Text.Bytes

/-!
# White space and line breaks

Three classes of characters. A *blank* is what the class `\s` of a regular expression matches in
a script: space, tab and the other separators, the byte order mark and the line breaks. A *line
break* is one of four characters. A *space* is the Unicode property `White_Space`; it differs
from a blank in two characters, as the next-line control U+0085 is a space and the byte order
mark is not.
-/

namespace ColonGap

/-- The Unicode property `White_Space`. -/
def isSpace (c : Nat) : Bool :=
  (9 ≤ c && c ≤ 13) || c == 0x20 || c == 0x85 || c == 0xA0 || c == 0x1680
    || (0x2000 ≤ c && c ≤ 0x200A) || c == 0x2028 || c == 0x2029 || c == 0x202F || c == 0x205F
    || c == 0x3000

/-- White space of a script, line breaks included. -/
def isBlank (c : Nat) : Bool :=
  c == 0xFEFF || (c != 0x85 && isSpace c)

/-- A line break of a script. -/
def isLineBreak (c : Nat) : Bool :=
  c == 10 || c == 13 || c == 0x2028 || c == 0x2029

/-- Every line break is a blank. -/
theorem isBlank_of_isLineBreak {c : Nat} (h : isLineBreak c = true) : isBlank c = true := by
  simp only [isLineBreak, Bool.or_eq_true, beq_iff_eq] at h
  rcases h with ((rfl | rfl) | rfl) | rfl <;> decide

end ColonGap
