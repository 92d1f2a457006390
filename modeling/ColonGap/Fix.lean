import ColonGap.Failure
import ColonGap.Ordering

/-!
# Applying fixes

The replacements of a list of failures are put into the source in the order of their offsets.
One that overlaps an earlier one is skipped, and so is an insertion at the offset of an earlier
insertion, because the two have no order.
-/

namespace ColonGap

namespace Fix

/-- The result of applying fixes. -/
structure Outcome where
  output : Bytes
  applied : List Failure
  /-- The failures whose replacement conflicts with one that was applied. -/
  skipped : List Failure

/-- Whether a replacement lies within a source of the given length. -/
def inRange (length : Nat) (r : Replacement) : Bool :=
  0 ≤ r.start && r.start ≤ r.stop && r.stop ≤ length

/-- The failures with a replacement that lies within the source, along with it. -/
def fixable (length : Nat) (failures : List Failure) : List (Failure × Replacement) :=
  failures.filterMap fun f ↦
    match f.fix with
    | some r => if inRange length r then some (f, r) else none
    | none => none

/-- The order of replacements: by start, then by end. -/
def precedes (r s : Replacement) : Bool :=
  if r.start == s.start then r.stop ≤ s.stop else r.start < s.start

/-- Whether `r` cannot be applied after `previous`. -/
def conflicts (previous r : Replacement) : Bool :=
  r.start < previous.stop
    || (r.start == previous.start && r.start == r.stop && previous.start == previous.stop)

/-- Apply replacements in order to the source, of which the first `done` bytes are dealt with. -/
def applyFrom (source : Bytes) (done : Nat) (previous : Option Replacement) :
    List (Failure × Replacement) → Outcome
  | [] => ⟨source.drop done, [], []⟩
  | (f, r) :: items =>
    if previous.any fun p ↦ conflicts p r then
      let rest := applyFrom source done previous items
      { rest with skipped := f :: rest.skipped }
    else
      let rest := applyFrom source r.stop.toNat (some r) items
      ⟨source.slice done r.start.toNat ++ r.text ++ rest.output, f :: rest.applied, rest.skipped⟩

/-- Apply the replacements of failures to a source. -/
def apply (source : Bytes) (failures : List Failure) : Outcome :=
  applyFrom source 0 none
    (sortBy (fun a b ↦ precedes a.2 b.2) (fixable source.length failures))

end Fix

end ColonGap
