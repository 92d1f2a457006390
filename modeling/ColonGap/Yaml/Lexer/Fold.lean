import ColonGap.Yaml.Lexer.Basic

/-!
# Folded white space

Between the words of a plain or quoted scalar stand blanks or line ends. Blanks on one line are
kept. A single line end stands for a blank, and further ones for themselves.
-/

namespace ColonGap.Yaml

/-- White space between two words of a scalar. -/
structure Fold where
  /-- The blanks before any line end. -/
  blanks : Bytes
  /-- The first line end, once one has been passed. An escaped line end leaves it empty. -/
  first : Option Bytes
  /-- The line ends behind the first one. -/
  others : Bytes
deriving DecidableEq, Repr, Inhabited

namespace Fold

/-- No white space. -/
def empty : Fold := ⟨[], none, []⟩

/-- What white space stands for. -/
def text (f : Fold) : Bytes :=
  match f.first with
  | none => f.blanks
  | some first =>
    if first == [10] then (if f.others.isEmpty then [32] else f.others)
    else first ++ f.others

end Fold

namespace Lex

/-- Move past white space. In a plain scalar a tab must not stand before the column `limit` of a
new line; `start` is where the scalar starts. -/
def fold (limit : Option Int) (start : Mark) : (fuel : Nat) → Fold → Lex Fold
  | 0, f => return f
  | fuel + 1, f => do
    let c ← peek
    if isSpacing c then
      if c == 9 && f.first.isSome && limit.any (((← here).column : Int) < ·) then
        fail .tabInScalar start
      advance
      fold limit start fuel (if f.first.isNone then { f with blanks := f.blanks ++ [c.toUInt8] }
        else f)
    else if endsLine c then
      let text ← lineEnd
      fold limit start fuel (if f.first.isNone then { f with blanks := [], first := some text }
        else { f with others := f.others ++ text })
    else return f

end Lex

end ColonGap.Yaml
