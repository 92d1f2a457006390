import ColonGap.RegExp.Property

/-!
# Characters and classes in regular expressions

How a regular expression names characters: by escapes, by the letters `\d`, `\s` and `\w` and
their opposites, by properties behind `\p`, and by classes in brackets, in which ranges and named
classes may stand. The text of an expression is a list of code points, and each reader returns
what it read along with the rest.
-/

namespace ColonGap

namespace RegExp

/-- What a reader of a part of an expression returns: nothing if the expression is malformed. -/
abbrev Read (α : Type) := Option (α × List Nat)

/-! ### Classes by name -/

/-- The characters from `low` to `high`. -/
def range (low high : Nat) : CharSet :=
  fun c ↦ low ≤ c && c ≤ high

/-- A decimal digit. -/
def isDigit : CharSet := range 48 57

/-- An ASCII letter in upper case. -/
def isUpper : CharSet := range 65 90

/-- An ASCII letter in lower case. -/
def isLower : CharSet := range 97 122

/-- An ASCII letter. -/
def isLetter : CharSet := fun c ↦ isUpper c || isLower c

/-- An ASCII letter or digit. -/
def isAlphanumeric : CharSet := fun c ↦ isLetter c || isDigit c

/-- The class of an escape letter such as `\d`. -/
def letterClass? (letter : Nat) : Option CharSet :=
  let space : CharSet := fun c ↦ c == 9 || c == 10 || c == 12 || c == 13 || c == 32
  if letter == 100 then some isDigit
  else if letter == 68 then some fun c ↦ !isDigit c
  else if letter == 115 then some space
  else if letter == 83 then some fun c ↦ !space c
  else if letter == 119 then some isWord
  else if letter == 87 then some fun c ↦ !isWord c
  else none

/-- The classes that have names. -/
def namedClasses : List (String × CharSet) :=
  [("alnum", isAlphanumeric), ("alpha", isLetter), ("ascii", range 0 0x7F),
    ("blank", fun c ↦ c == 9 || c == 32), ("cntrl", fun c ↦ range 0 0x1F c || c == 0x7F),
    ("digit", isDigit), ("graph", range 33 126), ("lower", isLower), ("print", range 32 126),
    ("punct", fun c ↦ range 33 126 c && !isAlphanumeric c),
    ("space", fun c ↦ range 9 13 c || c == 32), ("upper", isUpper), ("word", isWord),
    ("xdigit", fun c ↦ isDigit c || range 65 70 c || range 97 102 c)]

/-- The class of the given name; a name that starts with `^` means all other characters. -/
def namedClass? (name : List Nat) : Option CharSet :=
  let find := fun (key : List Nat) ↦
    (namedClasses.find? fun entry ↦ (utf8 entry.1).map (·.toNat) == key).map (·.2)
  match name with
  | 94 :: rest => (find rest).map fun set c ↦ !set c
  | _ => find name

/-- The text before the first closing brace, and that behind it. -/
def bracedName : List Nat → Option (List Nat × List Nat)
  | [] => none
  | 125 :: rest => some ([], rest)
  | c :: rest => (bracedName rest).map fun (name, rest) ↦ (c :: name, rest)

/-- The set behind `\p`, or behind `\P` if `negated` holds: a letter, or a name in braces. A name
that starts with `^` means all other characters. -/
def propertyClass (negated : Bool) (text : List Nat) : Read CharSet :=
  let name? := match text with
    | 123 :: rest => bracedName rest
    | c :: rest => some ([c], rest)
    | [] => none
  name?.bind fun (name, rest) ↦
    let (negated, name) := match name with
      | 94 :: name => (!negated, name)
      | name => (negated, name)
    (property? name).map fun set ↦ (if negated then fun c ↦ !set c else set, rest)

/-! ### Escapes -/

/-- The value of a hexadecimal digit. -/
def hexValue? (c : Nat) : Option Nat :=
  if isDigit c then some (c - 48)
  else if range 65 70 c then some (c - 55)
  else if range 97 102 c then some (c - 87)
  else none

/-- An octal digit. -/
def isOctal : CharSet := range 48 55

/-- The value of a list of octal digits. -/
def octalValue (digits : List Nat) : Nat :=
  digits.foldl (fun v d ↦ v * 8 + (d - 48)) 0

/-- Hexadecimal digits up to a closing brace, after the value of those before them. -/
def bracedHex (value count : Nat) : List Nat → Read Nat
  | [] => none
  | 125 :: rest => if count == 0 then none else some (value, rest)
  | c :: rest =>
    (hexValue? c).bind fun v ↦
      if value * 16 + v > 0x10FFFF then none else bracedHex (value * 16 + v) (count + 1) rest

/-- The character of an escape that starts with `\x`. -/
def hexEscape : List Nat → Read Nat
  | 123 :: rest => bracedHex 0 0 rest
  | c :: d :: rest =>
    match hexValue? c, hexValue? d with
    | some x, some y => some (x * 16 + y, rest)
    | _, _ => none
  | _ => none

/-- The character of an escape of octal digits, of which there are at most three. -/
def octalEscape (text : List Nat) : Read Nat :=
  let digits := (text.take 3).takeWhile isOctal
  some (octalValue digits, text.drop digits.length)

/-- The control character of an escape letter. -/
def controlOf? : Nat → Option Nat
  | 97 => some 7
  | 102 => some 12
  | 110 => some 10
  | 114 => some 13
  | 116 => some 9
  | 118 => some 11
  | _ => none

/-- The character that an escape stands for; the backslash has been read. A digit other than
zero needs a second octal digit, and a letter has to have a meaning. -/
def escape : List Nat → Read Nat
  | [] => none
  | c :: rest =>
    if c == 48 then octalEscape (c :: rest)
    else if isOctal c then
      if (rest.head?).any isOctal then octalEscape (c :: rest) else none
    else if c == 120 then hexEscape rest
    else
      match controlOf? c with
      | some code => some (code, rest)
      | none => if c < 0x80 && !isAlphanumeric c then some (c, rest) else none

/-! ### Classes in brackets -/

/-- A character of a class. -/
def classChar : List Nat → Read Nat
  | [] => none
  | 92 :: rest => escape rest
  | c :: rest => some (c, rest)

/-- A character of a class, or a range of them. A `-` before the closing bracket stands for
itself. -/
def classRange (text : List Nat) : Read CharSet :=
  (classChar text).bind fun (low, rest) ↦
    match rest with
    | 45 :: c :: more =>
      if c == 93 then some (range low low, rest)
      else
        (classChar (c :: more)).bind fun (high, rest) ↦
          if high < low then none else some (range low high, rest)
    | _ => some (range low low, rest)

/-- The characters before the first `:]`, and those behind it. -/
def classNameEnd : List Nat → Option (List Nat × List Nat)
  | 58 :: 93 :: rest => some ([], rest)
  | c :: rest => (classNameEnd rest).map fun (name, rest) ↦ (c :: name, rest)
  | [] => none

/-- One item of a class. -/
def classItem (text : List Nat) : Read CharSet :=
  match text with
  | 91 :: 58 :: rest =>
    match classNameEnd rest with
    | some (name, rest) => (namedClass? name).map (·, rest)
    | none => classRange text
  | 92 :: letter :: rest =>
    if letter == 112 || letter == 80 then propertyClass (letter == 80) rest
    else
      match letterClass? letter with
      | some set => some (set, rest)
      | none => classRange text
  | _ => classRange text

/-- The items of a class up to the closing bracket. -/
def classItems : (fuel : Nat) → (set : CharSet) → List Nat → Read CharSet
  | _, set, 93 :: rest => some (set, rest)
  | 0, _, _ => none
  | fuel + 1, set, text =>
    (classItem text).bind fun (item, rest) ↦ classItems fuel (fun c ↦ set c || item c) rest

/-- A class; its opening bracket has been read. The first item may be a closing bracket. -/
def charClass (text : List Nat) : Read CharSet :=
  let negated := text.head? == some 94
  let body := if negated then text.drop 1 else text
  (classItem body).bind fun (first, rest) ↦
    (classItems rest.length first rest).map fun (set, rest) ↦
      (if negated then fun c ↦ !set c else set, rest)

end RegExp

end ColonGap
