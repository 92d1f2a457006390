import ColonGap.Text.Blank
import ColonGap.Text.Utf8

/-!
# Where strings, regular expressions and templates end

Each of the three is measured by a small automaton over the remaining characters. The automata
only find the end; what the text stands for is decided afterwards. A backslash takes the next
character with it, whatever that is, so the length of an escape does not matter here.
-/

namespace ColonGap.Script

/-- How a literal ends. -/
inductive Ending where
  /-- With its closing mark. -/
  | closed
  /-- At a line break or the end of the source. -/
  | broken
  /-- A template: with the opening of a substitution. -/
  | substitution
deriving DecidableEq, Repr

/-- A measured literal: the number of characters to its end, the end included. -/
structure Extent where
  count : Nat
  ending : Ending
deriving DecidableEq, Repr

namespace Extent

/-- One character more. -/
def more (e : Extent) : Extent :=
  { e with count := e.count + 1 }

/-- The extent of a literal that breaks off at the line break `code`, before `rest`. -/
def atLineBreak (code : Nat) : List Scalar → Extent
  | c :: _ => ⟨if code == 13 && c.code == 10 then 2 else 1, .broken⟩
  | [] => ⟨1, .broken⟩

end Extent

/-- Where a string literal stands. -/
inductive StringMode where
  | plain
  /-- Behind a backslash. -/
  | escaped
  /-- Behind a backslash and a carriage return. -/
  | returned
deriving DecidableEq

/-- The extent of a string whose opening quote has been passed. A backslash before a line break
continues the string on the next line. -/
def stringExtent (quote : Nat) : StringMode → List Scalar → Extent
  | _, [] => ⟨0, .broken⟩
  | .escaped, c :: rest =>
    (stringExtent quote (if c.code == 13 then .returned else .plain) rest).more
  | mode, c :: rest =>
    if mode == .returned && c.code == 10 then (stringExtent quote .plain rest).more
    else if c.code == quote then ⟨1, .closed⟩
    else if c.code == 10 || c.code == 13 then .atLineBreak c.code rest
    else (stringExtent quote (if c.code == 92 then .escaped else .plain) rest).more

/-- Where a regular expression stands. -/
inductive RegexMode where
  | plain
  /-- Inside a class in square brackets. -/
  | bracket
  /-- Behind a backslash outside a class. -/
  | escaped
  /-- Behind a backslash inside a class. -/
  | bracketEscaped
  /-- Behind a backslash and a carriage return inside a class. -/
  | bracketReturned
deriving DecidableEq

/-- How a regular expression ends. A line break inside a class breaks it off without being
reported, and the end of the source inside a class closes it. -/
inductive RegexEnding where
  | closed
  | missingSlash
  | unreported
deriving DecidableEq, Repr

/-- The extent of a regular expression whose opening slash has been passed. -/
def regexExtent : RegexMode → List Scalar → Nat × RegexEnding
  | .plain, [] => (0, .missingSlash)
  | .escaped, [] => (0, .missingSlash)
  | _, [] => (0, .closed)
  | .plain, c :: rest =>
    if c.code == 47 then (1, .closed)
    else if isLineBreak c.code then ((Extent.atLineBreak c.code rest).count, .missingSlash)
    else
      let mode := if c.code == 92 then RegexMode.escaped else if c.code == 91 then .bracket else .plain
      let (n, ending) := regexExtent mode rest
      (n + 1, ending)
  | .escaped, c :: rest =>
    if isLineBreak c.code then ((Extent.atLineBreak c.code rest).count, .missingSlash)
    else
      let (n, ending) := regexExtent .plain rest
      (n + 1, ending)
  | .bracketEscaped, c :: rest =>
    let (n, ending) := regexExtent (if c.code == 13 then .bracketReturned else .bracket) rest
    (n + 1, ending)
  | mode, c :: rest =>
    if mode == .bracketReturned && c.code == 10 then
      let (n, ending) := regexExtent .bracket rest
      (n + 1, ending)
    else if c.code == 10 || c.code == 13 then
      ((Extent.atLineBreak c.code rest).count, .unreported)
    else
      let mode :=
        if c.code == 92 then RegexMode.bracketEscaped else if c.code == 93 then .plain else .bracket
      let (n, ending) := regexExtent mode rest
      (n + 1, ending)

/-- A measured stretch of template text. -/
structure TemplateExtent where
  extent : Extent
  /-- Whether a backslash stands before `8` or `9`. -/
  badDigit : Bool
deriving DecidableEq, Repr

namespace TemplateExtent

/-- One character more. -/
def more (t : TemplateExtent) : TemplateExtent :=
  { t with extent := t.extent.more }

end TemplateExtent

/-- The extent of the text of a template up to its closing backtick or the next substitution. -/
def templateExtent : (escaped : Bool) → List Scalar → TemplateExtent
  | _, [] => ⟨⟨0, .broken⟩, false⟩
  | true, c :: rest =>
    let t := (templateExtent false rest).more
    { t with badDigit := t.badDigit || c.code == 56 || c.code == 57 }
  | false, c :: rest =>
    if c.code == 96 then ⟨⟨1, .closed⟩, false⟩
    else if c.code == 92 then (templateExtent true rest).more
    else if c.code == 36 && (rest.head?.map (·.code)) == some 123 then
      ⟨⟨2, .substitution⟩, false⟩
    else (templateExtent false rest).more

end ColonGap.Script
