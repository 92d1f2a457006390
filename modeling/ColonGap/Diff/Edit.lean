import ColonGap.Text.Bytes

/-!
# Edits between two lists of lines

An edit keeps lines or changes some lines into others, and a list of edits describes how one
list of lines becomes another. It is found by *longest matches*: the longest run of lines that
both lists share is kept, and what stands before and behind it is compared in the same way. Of
equally long runs the one that starts first in the old lines wins, and then the one that starts
first in the new lines.

A line that is repeated too often in a long new text is *popular* and does not start a match,
because it would tie unrelated places together; it may still extend one.
-/

namespace ColonGap

namespace Diff

/-- One step from the old lines to the new ones. -/
inductive Edit where
  /-- Lines that both lists have. -/
  | keep (lines : List Bytes)
  /-- Lines of the old list and the lines that take their place. -/
  | change (removed added : List Bytes)
deriving DecidableEq, Repr

namespace Edit

/-- The old lines of an edit. -/
def old : Edit → List Bytes
  | keep lines => lines
  | change removed _ => removed

/-- The new lines of an edit. -/
def new : Edit → List Bytes
  | keep lines => lines
  | change _ added => added

/-- Whether an edit changes something. -/
def isChange : Edit → Bool
  | keep _ => false
  | change _ _ => true

end Edit

/-! ### Popular lines -/

/-- The number of new lines from which on lines can be popular. -/
def popularityThreshold : Nat := 200

/-- The lines that occur more often than once in about a hundred lines of a long text. -/
def popular (new : List Bytes) : List Bytes :=
  if new.length < popularityThreshold then []
  else new.filter fun line ↦ new.length / 100 + 1 < new.count line

/-! ### The longest match -/

/-- A run of lines that both lists share: where it starts in each, and how long it is. -/
structure Match where
  old : Nat
  new : Nat
  size : Nat
deriving DecidableEq, Repr

/-- The lengths of the matches that end with `line` and with each of the new lines, given those
that end one line earlier in the old list. -/
def nextLengths (ignored : List Bytes) (new : List Bytes) (line : Bytes) (lengths : List Nat) :
    List Nat :=
  if ignored.contains line then new.map fun _ ↦ 0
  else List.zipWith (fun other n ↦ if other == line then n + 1 else 0) new (0 :: lengths)

/-- The best of `best` and the matches of the given lengths that end behind the old line number
`i` and the new lines from number `j` on. -/
def bestInRow (i : Nat) : (j : Nat) → List Nat → Match → Match
  | _, [], best => best
  | j, n :: lengths, best =>
    bestInRow i (j + 1) lengths (if best.size < n then ⟨i + 1 - n, j + 1 - n, n⟩ else best)

/-- The best match that ends in the old lines from number `i` on. -/
def bestFrom (ignored new : List Bytes) : (i : Nat) → List Bytes → (lengths : List Nat) →
    Match → Match
  | _, [], _, best => best
  | i, line :: old, lengths, best =>
    let lengths := nextLengths ignored new line lengths
    bestFrom ignored new (i + 1) old lengths (bestInRow i 0 lengths best)

/-- The number of lines that two lists start with in common. -/
def commonLength : List Bytes → List Bytes → Nat
  | a :: s, b :: t => if a == b then commonLength s t + 1 else 0
  | _, _ => 0

/-- Extend a match on both sides as far as the lines agree. -/
def extend (old new : List Bytes) (m : Match) : Match :=
  let before := commonLength (old.take m.old).reverse (new.take m.new).reverse
  let behind := commonLength (old.drop (m.old + m.size)) (new.drop (m.new + m.size))
  ⟨m.old - before, m.new - before, before + m.size + behind⟩

/-- The longest match of two lists of lines. -/
def longestMatch (ignored old new : List Bytes) : Match :=
  extend old new (bestFrom ignored new 0 old (new.map fun _ ↦ 0) ⟨0, 0, 0⟩)

/-! ### The list of edits -/

/-- The edits from `old` to `new`, with at most `fuel` nested matches. -/
def editsWithin (ignored : List Bytes) : (fuel : Nat) → (old new : List Bytes) → List Edit
  | 0, old, new => [.change old new]
  | fuel + 1, old, new =>
    let m := longestMatch ignored old new
    if m.size == 0 then [.change old new]
    else
      editsWithin ignored fuel (old.take m.old) (new.take m.new)
        ++ .keep ((old.drop m.old).take m.size)
        :: editsWithin ignored fuel (old.drop (m.old + m.size)) (new.drop (m.new + m.size))

/-- Leave out changes of nothing and join kept lines that stand together. -/
def simplify : List Edit → List Edit
  | [] => []
  | .change [] [] :: edits => simplify edits
  | .change removed added :: edits => .change removed added :: simplify edits
  | .keep lines :: edits =>
    match simplify edits with
    | .keep others :: rest => .keep (lines ++ others) :: rest
    | rest => .keep lines :: rest

/-- The edits that turn the old lines into the new ones. Each match takes at least one old line,
so their nesting is bounded by the number of these. -/
def edits (old new : List Bytes) : List Edit :=
  simplify (editsWithin (popular new) old.length old new)

end Diff

end ColonGap
