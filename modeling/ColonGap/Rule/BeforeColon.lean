import ColonGap.Policy
import ColonGap.Rule

/-!
# The rule on white space before colons

The gap of a construct is the white space between its key and its colon. It is measured from
the end of the token before the colon, up to the first character that is no blank, so a comment
ends it. A gap that holds a line break is always accepted.
-/

namespace ColonGap

/-- A measured gap. -/
structure GapRun where
  /-- Its length in bytes. -/
  width : Nat
  /-- Its length in characters. -/
  length : Nat
  lineBreak : Bool
deriving DecidableEq, Repr

namespace GapRun

/-- The gap at the start of a list of characters. -/
def ofScalars : List Scalar → GapRun
  | [] => ⟨0, 0, false⟩
  | c :: rest =>
    if isBlank c.code then
      let run := ofScalars rest
      ⟨c.width + run.width, run.length + 1, isLineBreak c.code || run.lineBreak⟩
    else ⟨0, 0, false⟩

/-- The gap at the start of a text. -/
def measure (s : Bytes) : GapRun :=
  ofScalars (Utf8.scalars s)

end GapRun

namespace Rule.BeforeColon

/-- The name of the rule. -/
def name : Bytes := utf8 "whitespace-before-colon"

/-- The range of a colon with its gap, if it lies within the source. -/
def site? (c : Construct) (source : Bytes) : Option (Nat × Nat) :=
  match c.colon? with
  | none => none
  | some p =>
    if 0 ≤ p.start && p.start ≤ p.stop && p.stop ≤ source.length then
      some (p.start.toNat, p.stop.toNat)
    else none

/-- The failure of a gap of `width` bytes that starts at `start`. -/
def failureAt (policy : Policy) (start width : Nat) : Failure :=
  .ofRange start (start + width : Nat) (utf8 "expected " ++ utf8 policy.name ++ utf8 " before colon")
    (some ⟨start, (start + width : Nat), List.replicate policy.fixedLength 32⟩)

/-- Check one construct. Constructs of unknown kinds and without a colon have no failure. -/
def check? (c : Construct) (source : Bytes) (policy : Policy) : Option Failure :=
  if c.kind == .unknown then none
  else
    match site? c source with
    | none => none
    | some (start, stop) =>
      let run := GapRun.measure (source.slice start stop)
      if run.lineBreak || policy.accepts run.length then none
      else some (failureAt policy start run.width)

/-- Check every construct of a file. -/
def check (f : SourceFile) (option : OptionValue) : List Failure :=
  match Policy.ofOption option with
  | .disabled => []
  | policy => f.constructs.filterMap fun c ↦ check? c f.source policy

/-- What is wrong with an option that selects no policy. -/
def optionError (option : OptionValue) : Option Bytes :=
  if Policy.ofOption option == .disabled then
    some (name ++ utf8 ": unrecognized option " ++ option.render ++ utf8 ", want one of "
      ++ Bytes.join (utf8 ", ") (Policy.selectable.map fun p ↦ quoted (utf8 p.name)))
  else none

/-- The rule. -/
def rule : Rule :=
  { name := name
    description :=
      utf8 "require or forbid whitespace before the colon in object literals and destructuring"
    options := some (Policy.selectable.map fun p ↦ utf8 p.name)
    rationale := some <|
      utf8 "Whitespace checks that look after a colon, or only at type annotations, "
        ++ utf8 "leave the gap before the colon of object literal keys and destructuring "
        ++ utf8 "bindings unchecked. This rule makes that gap consistent."
    fixable := true
    optionError := optionError
    check := check }

end Rule.BeforeColon

end ColonGap
