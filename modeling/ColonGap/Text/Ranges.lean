/-!
# Sets of code points

A property of characters is given by the ascending list of its ranges, both ends included.
-/

namespace ColonGap

/-- A set of code points: ascending ranges, both ends included. -/
abbrev Ranges := List (Nat × Nat)

namespace Ranges

/-- Whether a code point lies in one of the ranges. The ranges ascend, so the search ends at the
first range that starts above it. -/
def contains : Ranges → Nat → Bool
  | [], _ => false
  | (low, high) :: rest, c => low ≤ c && (c ≤ high || contains rest c)

end Ranges

end ColonGap
