import ColonGap.RegExp.Class

/-!
# Reading regular expressions

The text of an expression is read from left to right. Open groups are kept on a stack of frames;
a frame holds the choices that are complete and the items of the one that is being read. A
repetition applies to the last item and may not follow another repetition.
-/

namespace ColonGap

namespace RegExp

/-- One group that is being read. -/
structure Frame where
  /-- The choices that are complete. -/
  choices : Option RegExp
  /-- The items of the present choice, the last one first. -/
  items : List RegExp

namespace Frame

/-- A group of which nothing has been read. -/
def start : Frame := ⟨none, []⟩

/-- Add an item. -/
def push (f : Frame) (r : RegExp) : Frame :=
  { f with items := r :: f.items }

/-- Add items. -/
def pushAll (f : Frame) (rs : List RegExp) : Frame :=
  { f with items := rs.reverse ++ f.items }

/-- The expression of a group. -/
def close (f : Frame) : RegExp :=
  let last := f.items.foldl (fun rest item ↦ .sequence item rest) .empty
  match f.choices with
  | none => last
  | some choices => .choice choices last

/-- End a choice and begin the next one. -/
def bar (f : Frame) : Frame :=
  ⟨some f.close, []⟩

/-- Repeat the last item. -/
def repeatLast? (f : Frame) (least : Nat) (most : Option Nat) : Option Frame :=
  match f.items with
  | [] => none
  | item :: items => some { f with items := .repeated item least most :: items }

end Frame

/-- The greatest bound of a repetition. -/
def maxRepeat : Nat := 1000

/-- A number without leading zeros. -/
def number (text : List Nat) : Read Nat :=
  let digits := text.takeWhile isDigit
  if digits.isEmpty || (digits.length > 1 && digits.head? == some 48) then none
  else some (digits.foldl (fun v d ↦ v * 10 + (d - 48)) 0, text.drop digits.length)

/-- The bounds of a repetition in braces; the opening brace has been read. There are none if the
braces hold anything else. -/
def bounds (text : List Nat) : Read (Nat × Option Nat) :=
  (number text).bind fun (least, rest) ↦
    match rest with
    | 125 :: rest => some ((least, some least), rest)
    | 44 :: 125 :: rest => some ((least, none), rest)
    | 44 :: rest =>
      (number rest).bind fun (most, rest) ↦
        match rest with
        | 125 :: rest => some ((least, some most), rest)
        | _ => none
    | _ => none

/-- Whether bounds can be used. -/
def boundsOk (least : Nat) (most : Option Nat) : Bool :=
  least ≤ maxRepeat && most.all fun m ↦ m ≤ maxRepeat && least ≤ m

/-- Whether repetitions within repetitions make up at most `n` copies of anything. One without an
upper bound counts as often as it must be there. -/
def copiesWithin : (n : Nat) → RegExp → Bool
  | n, repeated body least most =>
    let copies := most.getD least
    most == some 0
      || (copies ≤ n && copiesWithin (if copies == 0 then n else n / copies) body)
  | n, sequence first second => copiesWithin n first && copiesWithin n second
  | n, choice first second => copiesWithin n first && copiesWithin n second
  | _, _ => true

/-- Whether the last item of a frame, a repetition with the given bounds, is not too large. -/
def lastFits (least : Nat) (most : Option Nat) (f : Frame) : Bool :=
  !(2 ≤ least || most.any (2 ≤ ·)) || (f.items.head?).all (copiesWithin maxRepeat)

/-- The text up to `\E`, and what follows it; all of it if there is no `\E`. -/
def quotedEnd : List Nat → List Nat × List Nat
  | [] => ([], [])
  | 92 :: 69 :: rest => ([], rest)
  | c :: rest => let (body, rest) := quotedEnd rest; (c :: body, rest)

/-- One character. -/
def literal (code : Nat) : RegExp :=
  char fun c ↦ c == code

/-- The items that an escape stands for; the backslash has been read. -/
def escapeItems : List Nat → Read (List RegExp)
  | 65 :: rest => some ([textStart], rest)
  | 98 :: rest => some ([wordBoundary true], rest)
  | 66 :: rest => some ([wordBoundary false], rest)
  | 122 :: rest => some ([textEnd], rest)
  | 81 :: rest => let (body, rest) := quotedEnd rest; some (body.map literal, rest)
  | text =>
    match text with
    | letter :: rest =>
      if letter == 112 || letter == 80 then
        (propertyClass (letter == 80) rest).map fun (set, rest) ↦ ([char set], rest)
      else
        match letterClass? letter with
        | some set => some ([char set], rest)
        | none => (escape text).map fun (code, rest) ↦ ([literal code], rest)
    | [] => none

/-- The bounds of a repetition that starts with the given character, and what follows. A `?`
behind them says which match to prefer, which makes no difference here. -/
def repetition? (c : Nat) (text : List Nat) : Read (Nat × Option Nat) :=
  let found : Read (Nat × Option Nat) :=
    if c == 42 then some ((0, none), text)
    else if c == 43 then some ((1, none), text)
    else if c == 63 then some ((0, some 1), text)
    else if c == 123 then bounds text
    else none
  found.map fun (b, rest) ↦ (b, if rest.head? == some 63 then rest.drop 1 else rest)

/-- One item that is no repetition and no group. -/
def item (c : Nat) (rest : List Nat) : Read (List RegExp) :=
  if c == 94 then some ([textStart], rest)
  else if c == 36 then some ([textEnd], rest)
  else if c == 46 then some ([char fun d ↦ d != 10], rest)
  else if c == 91 then (charClass rest).map fun (set, rest) ↦ ([char set], rest)
  else if c == 92 then escapeItems rest
  else some ([literal c], rest)

/-- Read the rest of an expression. `repeating` tells whether the last thing read was a
repetition. -/
def parseFrom : (fuel : Nat) → (above : List Frame) → Frame → (repeating : Bool) → List Nat →
    Option RegExp
  | _, [], frame, _, [] => some frame.close
  | _, _ :: _, _, _, [] => none
  | 0, _, _, _, _ => none
  | fuel + 1, above, frame, repeating, c :: rest =>
    if c == 40 then parseFrom fuel (frame :: above) .start false rest
    else if c == 41 then
      match above with
      | [] => none
      | outer :: above => parseFrom fuel above (outer.push frame.close) false rest
    else if c == 124 then parseFrom fuel above frame.bar false rest
    else
      match repetition? c rest with
      | some ((least, most), rest) =>
        if repeating || !boundsOk least most then none
        else ((frame.repeatLast? least most).filter (lastFits least most)).bind fun frame ↦
          parseFrom fuel above frame true rest
      | none =>
        (item c rest).bind fun (items, rest) ↦
          parseFrom fuel above (frame.pushAll items) false rest

/-- Read a regular expression; there is none if the text is malformed. -/
def parse? (text : List Nat) : Option RegExp :=
  parseFrom text.length [] .start false text

end RegExp

end ColonGap
