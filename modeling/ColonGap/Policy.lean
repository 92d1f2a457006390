import ColonGap.OptionValue
import ColonGap.Text.Quoted

/-!
# How much white space stands before a colon

A policy says how many blanks a gap may have. A rule option selects one by its exact name; any
other value selects none and disables the check.
-/

namespace ColonGap

/-- The white space required before a colon. -/
inductive Policy where
  /-- Nothing is checked. -/
  | disabled
  /-- No blank. -/
  | noSpace
  /-- Exactly one blank. -/
  | oneSpace
  /-- At least one blank. -/
  | someSpace
  /-- A policy without a name, which asks for exactly one blank. -/
  | unnamed
deriving DecidableEq, Repr

namespace Policy

/-- The policies that an option can select. -/
def selectable : List Policy :=
  [noSpace, oneSpace, someSpace]

/-- The name of a policy, by which an option selects it. -/
def name : Policy → String
  | noSpace => "nospace"
  | oneSpace => "onespace"
  | someSpace => "space"
  | disabled | unnamed => "disabled"

/-- The policy that an option selects. -/
def ofOption : OptionValue → Policy
  | .text s => (selectable.find? fun p ↦ utf8 p.name == s).getD disabled
  | _ => disabled

/-- The number of blanks that a fix leaves. -/
def fixedLength : Policy → Nat
  | noSpace => 0
  | _ => 1

/-- Whether a gap of `length` blanks is accepted. -/
def accepts (p : Policy) (length : Nat) : Bool :=
  match p with
  | disabled => true
  | someSpace => 0 < length
  | p => length == p.fixedLength

end Policy

end ColonGap
