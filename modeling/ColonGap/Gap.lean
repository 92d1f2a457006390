import ColonGap.Text.Blank
import ColonGap.Text.Utf8

/-!
# Finding the colon behind a key

Between the end of a key and its colon stand blanks, comments, and the brackets that close a
computed key. `Gap.findColon` reads such *items* from a given offset on until it meets the
colon; anything else means that there is no colon to be found.

An item is a single blank, a closing bracket or parenthesis, a line comment up to its line break
(which is not part of it), or a block comment. `Gap.item?` recognises the item a text starts
with, and the search is nothing but taking items off the front.
-/

namespace ColonGap

namespace Gap

/-- Whether a text starts with a line break. -/
def startsLineBreak : Bytes → Bool
  | 10 :: _ => true
  | 13 :: _ => true
  | 0xE2 :: 0x80 :: b :: _ => b == 0xA8 || b == 0xA9
  | _ => false

/-- The offset of the first line break. -/
def lineBreak? : Bytes → Option Nat
  | [] => none
  | b :: rest => if startsLineBreak (b :: rest) then some 0 else (lineBreak? rest).map (· + 1)

/-- An item: how many bytes it takes, and whether it closes the key. -/
structure Item where
  width : Nat
  closes : Bool
deriving DecidableEq, Repr

/-- The item that a text starts with. -/
def item? : Bytes → Option Item
  | [] => none
  | b :: rest =>
    if b == 93 || b == 41 then some ⟨1, true⟩
    else if [47, 47].isPrefixOf (b :: rest) then
      (lineBreak? (b :: rest)).map fun n ↦ ⟨n, false⟩
    else if [47, 42].isPrefixOf (b :: rest) then
      (Bytes.indexOf? [42, 47] (rest.drop 1)).map fun n ↦ ⟨n + 4, false⟩
    else
      let c := Utf8.ofLead b rest
      if isBlank c.code then some ⟨c.width, false⟩ else none

/-- The search at offset `at`, with `skip` bytes of the last item still to pass. `closed` is the
offset behind the last closing item, or the start of the search. -/
def searchFrom : (skip offset closed : Nat) → Bytes → Option (Nat × Nat)
  | _, _, _, [] => none
  | skip + 1, offset, closed, _ :: rest => searchFrom skip (offset + 1) closed rest
  | 0, offset, closed, b :: rest =>
    if b == 58 then some (closed, offset)
    else
      match item? (b :: rest) with
      | none => none
      | some item =>
        searchFrom (item.width - 1) (offset + 1)
          (if item.closes then offset + 1 else closed) rest

/-- The colon that follows a key which ends at `start`: the end of the last token before the
colon, and the offset of the colon. -/
def findColon (source : Bytes) (start : Int) : Option (Nat × Nat) :=
  if 0 ≤ start && start ≤ source.length then
    searchFrom 0 start.toNat start.toNat (source.drop start.toNat)
  else none

end Gap

end ColonGap
