import ColonGap.Text.Bytes

/-!
# Constructs with a colon

What a rule looks at: a property of an object literal or an element of a pattern, with its key,
its colon and its value as consecutive parts. The part of the colon starts where the token
before the colon ends, so it holds the gap as well as the colon.

Offsets are integers, because a construct may be put together by hand and then point anywhere.
-/

namespace ColonGap

/-- What a construct is. -/
inductive ConstructKind where
  /-- A `key: value` entry of an object literal. -/
  | propertyAssignment
  /-- An element of an object or array pattern. -/
  | bindingElement
  /-- A kind that no rule knows. -/
  | unknown
deriving DecidableEq, Repr

namespace ConstructKind

/-- The name of a kind. -/
def name : ConstructKind → String
  | propertyAssignment => "PropertyAssignment"
  | bindingElement => "BindingElement"
  | unknown => "Unknown"

end ConstructKind

/-- What a part of a construct is. -/
inductive PartKind where
  | key | colon | value | unknown
deriving DecidableEq, Repr

/-- A part of a construct: the range from the end of the part before it to its own end. -/
structure Part where
  kind : PartKind
  start : Int
  stop : Int
deriving DecidableEq, Repr

/-- A construct and its parts. -/
structure Construct where
  kind : ConstructKind
  start : Int
  stop : Int
  parts : List Part
deriving DecidableEq, Repr

namespace Construct

/-- The colon of a construct: its first part of that kind. -/
def colon? (c : Construct) : Option Part :=
  c.parts.find? (·.kind == .colon)

end Construct

end ColonGap
