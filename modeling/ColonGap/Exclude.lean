import ColonGap.Exclude.Wildcards
import ColonGap.Path
import ColonGap.Text.Trim

/-!
# Excluding files

A list of patterns says which paths to leave out. A pattern matches a path if it matches the
path itself or a directory above it. The patterns are tried in order: a plain one can exclude a
path, and one that starts with `!` can take an excluded path back.
-/

namespace ColonGap

namespace Exclude

/-- What is wrong with a pattern. -/
inductive Error where
  /-- A pattern is nothing but a negation. -/
  | loneNegation
  /-- Brackets, escapes or ranges of a pattern make no sense. -/
  | malformed
deriving DecidableEq, Repr

/-- The wording of an error. -/
def Error.message : Error → String
  | loneNegation => "illegal exclusion pattern: \"!\""
  | malformed => "syntax error in pattern"

/-- A pattern. -/
structure Pattern where
  /-- Whether matching paths are taken back. -/
  negated : Bool
  /-- What it matches; nothing is known of a pattern whose expression is malformed, and it is an
  error to try such a pattern. -/
  matcher : Option Matcher

/-- Read a pattern that is trimmed and not empty. -/
def Pattern.ofText (text : Bytes) : Except Error Pattern :=
  let cleaned := Path.clean text
  let negated := cleaned.head? == some 33
  let body := if negated then cleaned.drop 1 else cleaned
  if body.isEmpty then .error .loneNegation
  else if !isWellFormed body then .error .malformed
  else .ok ⟨negated, compile? body⟩

/-- Read a list of patterns; blank ones are left out. -/
def patterns : List Bytes → Except Error (List Pattern)
  | [] => .ok []
  | text :: texts =>
    if text.trim.isEmpty then patterns texts
    else
      match Pattern.ofText text.trim with
      | .error e => .error e
      | .ok p => (patterns texts).map (p :: ·)

/-- The path of some names. -/
def pathOf (names : List Bytes) : Bytes :=
  Bytes.join [47] names

/-- The places on the way along some names from the place `above` on. -/
def placesFrom (above : List Bytes) : List Bytes → List (List Bytes)
  | [] => []
  | name :: names => (above ++ [name]) :: placesFrom (above ++ [name]) names

/-- The paths of all directories above the path of some names, and that path itself. -/
def lineage (names : List Bytes) : List Bytes :=
  (placesFrom [] names).map pathOf

/-- Whether a pattern matches a path or a directory above it. -/
def Pattern.accepts (p : Pattern) (names : List Bytes) : Except Error Bool :=
  match p.matcher with
  | none => .error .malformed
  | some m => .ok ((lineage names).any m.accepts)

/-- Whether a path is excluded after the remaining patterns, given whether it was before. A
pattern that could not change that is not tried. -/
def excludedFrom (names : List Bytes) : (excluded : Bool) → List Pattern → Except Error Bool
  | excluded, [] => .ok excluded
  | excluded, p :: ps =>
    if p.negated != excluded then excludedFrom names excluded ps
    else
      match p.accepts names with
      | .error e => .error e
      | .ok accepted => excludedFrom names (if accepted then !p.negated else excluded) ps

/-- Whether the patterns exclude the path of the given names. -/
def excludes (patterns : List Pattern) (names : List Bytes) : Except Error Bool :=
  excludedFrom names false patterns

end Exclude

end ColonGap
