import ColonGap.Text.Bytes

/-!
# Regular expressions

A regular expression over characters, and what it matches. Matching is structural: an expression
sends each offset of a text to the offsets at which a match that starts there can end.

A set of characters is a test on code points. The text is an array of code points, so that the
characters on both sides of an offset can be looked at.
-/

namespace ColonGap

/-- A regular expression. -/
inductive RegExp where
  /-- The empty text. -/
  | empty
  /-- One character of a set. -/
  | char (test : Nat → Bool)
  /-- The start of the text. -/
  | textStart
  /-- The end of the text. -/
  | textEnd
  /-- A place between a word character and another one, or no such place. -/
  | wordBoundary (present : Bool)
  /-- One expression after the other. -/
  | sequence (first second : RegExp)
  /-- One of two expressions. -/
  | choice (first second : RegExp)
  /-- An expression several times, with no upper bound if there is none. -/
  | repeated (body : RegExp) (least : Nat) (most : Option Nat)

namespace RegExp

/-- A character of a word. -/
def isWord (code : Nat) : Bool :=
  (48 ≤ code && code ≤ 57) || (65 ≤ code && code ≤ 90) || code == 95 || (97 ≤ code && code ≤ 122)

/-- Whether there is a word character on exactly one side of an offset. -/
def isBoundary (text : Array Nat) (offset : Nat) : Bool :=
  let before := offset != 0 && (text[offset - 1]?).any isWord
  let after := (text[offset]?).any isWord
  before != after

/-- The offsets reached from some offsets by one step, each once. -/
def advance (step : Nat → List Nat) (offsets : List Nat) : List Nat :=
  (offsets.flatMap step).eraseDups

/-- The offsets reached by exactly `n` steps. -/
def advanceBy (step : Nat → List Nat) : (n : Nat) → List Nat → List Nat
  | 0, offsets => offsets
  | n + 1, offsets => advanceBy step n (advance step offsets)

/-- The offsets reached by at most `n` steps. Offsets that were reached before lead to nothing
new. -/
def advanceUpTo (step : Nat → List Nat) : (n : Nat) → (reached fresh : List Nat) → List Nat
  | 0, reached, fresh => reached ++ fresh
  | n + 1, reached, fresh =>
    let known := reached ++ fresh
    let next := (advance step fresh).filter fun o ↦ !known.contains o
    if next.isEmpty then known else advanceUpTo step n known next

/-- The offsets at which a match that starts at the given offset can end. As a text of length
`n` has `n + 1` offsets, that many steps reach all that an unbounded repetition reaches. -/
def ends (text : Array Nat) : RegExp → Nat → List Nat
  | empty, o => [o]
  | char test, o => if (text[o]?).any test then [o + 1] else []
  | textStart, o => if o == 0 then [o] else []
  | textEnd, o => if o == text.size then [o] else []
  | wordBoundary present, o => if isBoundary text o == present then [o] else []
  | sequence first second, o => advance (fun p ↦ ends text second p) (ends text first o)
  | choice first second, o => (ends text first o ++ ends text second o).eraseDups
  | repeated body least most, o =>
    let step := fun p ↦ ends text body p
    let extra := match most with
      | some n => n - least
      | none => text.size + 1
    advanceUpTo step extra [] (advanceBy step least [o])

/-- Whether some part of a text matches. -/
def matchesIn (r : RegExp) (text : Array Nat) : Bool :=
  (List.range (text.size + 1)).any fun o ↦ !(ends text r o).isEmpty

end RegExp

end ColonGap
