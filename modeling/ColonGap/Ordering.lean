/-!
# Stable sorting

Insertion sort: an element goes before the first one that it does not exceed, so equal elements
keep their order.
-/

namespace ColonGap

variable {α : Type}

/-- Put an element before the first one that it does not exceed. -/
def insertBy (le : α → α → Bool) (a : α) : List α → List α
  | [] => [a]
  | b :: items => if le a b then a :: b :: items else b :: insertBy le a items

/-- The elements in ascending order, equal ones in the order they had. -/
def sortBy (le : α → α → Bool) : List α → List α
  | [] => []
  | a :: items => insertBy le a (sortBy le items)

end ColonGap
