import ColonGap.RegExp.Parser
import ColonGap.Text.Utf8

/-!
# Wildcards

What a pattern with wildcards matches. `*` stands for any characters but slashes, `?` for one
such character, `**` for any directories, and brackets hold a class of characters. Most patterns
need no more than a comparison; the others mean a regular expression, which is put together as
a text, so that brackets and escapes have the meaning they have there.
-/

namespace ColonGap

namespace Exclude

/-- How the paths that match a pattern are found. -/
inductive Matcher where
  /-- The path is the given one. -/
  | exact (path : Bytes)
  /-- The path starts with a text. -/
  | start (text : Bytes)
  /-- The path ends with a text; a slash at the front of that text may be missing. -/
  | ending (text : Bytes)
  /-- The path matches an expression. -/
  | expression (r : RegExp)

/-- Whether a path matches. -/
def Matcher.accepts : Matcher → Bytes → Bool
  | exact path, p => p == path
  | start text, p => text.isPrefixOf p
  | ending text, p => text.isSuffixOf p || text == 47 :: p
  | expression r, p => r.matchesIn ((Utf8.scalars p).map (·.code)).toArray

/-! ### Well-formed wildcards -/

/-- One character of a class, possibly escaped; something has to follow it. -/
def classMember : List Scalar → Option (List Scalar)
  | [] => none
  | c :: rest =>
    if c.code == 45 || c.code == 93 then none
    else
      match if c.code == 92 then rest else c :: rest with
      | [] => none
      | d :: rest => if d.isMalformed || rest.isEmpty then none else some rest

/-- The rest behind a class of which at least one member has been read if `started` holds. -/
def classEnd : (fuel : Nat) → (started : Bool) → List Scalar → Option (List Scalar)
  | 0, _, _ => none
  | fuel + 1, started, text =>
    if started && (text.head?).any (·.code == 93) then some (text.drop 1)
    else
      (classMember text).bind fun rest ↦
        if (rest.head?).any (·.code == 45) then
          (classMember (rest.drop 1)).bind (classEnd fuel true)
        else classEnd fuel true rest

/-- Whether the classes and escapes of a piece of a pattern are complete. -/
def isComplete : (fuel : Nat) → List Scalar → Bool
  | _, [] => true
  | 0, _ => false
  | fuel + 1, c :: rest =>
    if c.code == 91 then
      let body := if (rest.head?).any (·.code == 94) then rest.drop 1 else rest
      ((classEnd (body.length + 1) false body).map (isComplete fuel)).getD false
    else if c.code == 92 then !rest.isEmpty && isComplete fuel (rest.drop 1)
    else isComplete fuel rest

/-- Put characters in front of the first piece. -/
def addToFirst (cs : List Scalar) : List (List Scalar) → List (List Scalar)
  | [] => [cs]
  | piece :: more => (cs ++ piece) :: more

/-- The pieces of a pattern between stars; `inClass` tells whether a bracket is open, in which a
star stands for itself. -/
def pieces (inClass : Bool) : List Scalar → List (List Scalar)
  | [] => [[]]
  | [c] => if c.code == 42 && !inClass then [[], []] else [[c]]
  | c :: d :: rest =>
    if c.code == 42 && !inClass then [] :: pieces false (d :: rest)
    else if c.code == 92 then addToFirst [c, d] (pieces inClass rest)
    else
      let inClass := if c.code == 91 then true else if c.code == 93 then false else inClass
      addToFirst [c] (pieces inClass (d :: rest))

/-- Whether every bracket and escape of a pattern is complete. -/
def isWellFormed (pattern : Bytes) : Bool :=
  (pieces false (Utf8.scalars pattern)).all fun piece ↦ isComplete piece.length piece

/-! ### Compiling patterns -/

/-- What is known of a pattern of which a part has been read. -/
inductive Shape where
  | exact | start | ending | expression
deriving DecidableEq, Repr

/-- The part of a pattern that has been read: the text of its expression and its
shape. -/
structure Progress where
  text : List Nat
  shape : Shape

/-- The code points of a string. -/
def codes (s : String) : List Nat :=
  s.toList.map Char.toNat

/-- A character that means something in an expression and nothing in a pattern. -/
def isEscaped (code : Nat) : Bool :=
  (codes ".+()$").contains code

/-- Read the rest of a pattern. `first` tells whether nothing has been read. -/
def compileFrom : (fuel : Nat) → (first : Bool) → Progress → List Nat → Progress
  | 0, _, p, _ => p
  | _, _, p, [] => p
  | fuel + 1, first, p, 42 :: 42 :: rest =>
    let rest := if rest.head? == some 47 then rest.drop 1 else rest
    let next : Progress :=
      if !rest.isEmpty then ⟨p.text ++ codes "(.*/)?", .expression⟩
      else if p.shape == .exact then ⟨p.text, .start⟩
      else ⟨p.text ++ codes ".*", .expression⟩
    compileFrom fuel false (if first then { next with shape := .ending } else next) rest
  | fuel + 1, _, p, 42 :: rest =>
    compileFrom fuel false ⟨p.text ++ codes "[^/]*", .expression⟩ rest
  | fuel + 1, _, p, 63 :: rest =>
    compileFrom fuel false ⟨p.text ++ codes "[^/]", .expression⟩ rest
  | fuel + 1, _, p, 92 :: c :: rest =>
    compileFrom fuel false ⟨p.text ++ [92, c], .expression⟩ rest
  | fuel + 1, _, p, c :: rest =>
    let shape := if c == 91 || c == 93 then .expression else p.shape
    compileFrom fuel false ⟨p.text ++ (if isEscaped c then [92, c] else [c]), shape⟩ rest

/-- The characters of a pattern; a byte order mark at its front is left out. -/
def patternCodes (pattern : Bytes) : List Nat :=
  let cs := (Utf8.scalars pattern).map (·.code)
  if cs.head? == some 0xFEFF then cs.drop 1 else cs

/-- The matcher of a pattern; there is none if the expression of the pattern is malformed. -/
def compile? (pattern : Bytes) : Option Matcher :=
  let cs := patternCodes pattern
  let p := compileFrom (cs.length + 1) true ⟨codes "^", .exact⟩ cs
  match p.shape with
  | .exact => some (.exact pattern)
  | .start => some (.start (pattern.take (pattern.length - 2)))
  | .ending => some (.ending (pattern.drop 2))
  | .expression => (RegExp.parse? (p.text ++ codes "$")).map .expression

end Exclude

end ColonGap
