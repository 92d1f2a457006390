import ColonGap.Yaml.Error
import ColonGap.Yaml.Timestamp

/-!
# The values of scalars

A plain scalar is null, a truth value, a number, a timestamp or, failing all these, a text. A tag
in front of a scalar asks for one kind of value.

* Whole numbers are decimal, or binary, octal or hexadecimal behind `0b`, `0o` and `0x`; a
  leading zero alone also means octal. Underscores between digits are skipped.
* A whole number that does not fit in 64 bits is a floating-point number, and a number that is
  beyond those too is a text.
-/

namespace ColonGap.Yaml

/-! ### Tags -/

/-- The start of the tags that are written with two marks. -/
def standardTags : Bytes := utf8 "tag:yaml.org,2002:"

/-- A tag in its short form. -/
def shortTag (tag : Bytes) : Bytes :=
  if standardTags.isPrefixOf tag then utf8 "!!" ++ tag.drop standardTags.length else tag

/-- The tag of a text. -/
def textTag : Bytes := utf8 "!!str"

/-- The tag of null. -/
def nullTag : Bytes := utf8 "!!null"

/-- The tag of a truth value. -/
def boolTag : Bytes := utf8 "!!bool"

/-- The tag of a whole number. -/
def intTag : Bytes := utf8 "!!int"

/-- The tag of a floating-point number. -/
def floatTag : Bytes := utf8 "!!float"

/-- The tag of a timestamp. -/
def timeTag : Bytes := utf8 "!!timestamp"

/-- The tag of bytes in base 64. -/
def binaryTag : Bytes := utf8 "!!binary"

/-- The tag of a sequence. -/
def sequenceTag : Bytes := utf8 "!!seq"

/-- The tag of a mapping. -/
def mappingTag : Bytes := utf8 "!!map"

/-- The tag of the key that merges mappings. -/
def mergeTag : Bytes := utf8 "!!merge"

namespace Scalar

/-! ### Words -/

/-- The scalars that stand for fixed values. -/
def words : List (String × OptionValue) :=
  [("true", .bool true), ("True", .bool true), ("TRUE", .bool true),
    ("false", .bool false), ("False", .bool false), ("FALSE", .bool false),
    ("", .null), ("~", .null), ("null", .null), ("Null", .null), ("NULL", .null),
    (".nan", .float Binary64.notANumber), (".NaN", .float Binary64.notANumber),
    (".NAN", .float Binary64.notANumber),
    (".inf", .float Binary64.infinity), (".Inf", .float Binary64.infinity),
    (".INF", .float Binary64.infinity),
    ("+.inf", .float Binary64.infinity), ("+.Inf", .float Binary64.infinity),
    ("+.INF", .float Binary64.infinity),
    ("-.inf", .float (Binary64.signBit + Binary64.infinity)),
    ("-.Inf", .float (Binary64.signBit + Binary64.infinity)),
    ("-.INF", .float (Binary64.signBit + Binary64.infinity))]

/-- The value of a word. -/
def word? (s : Bytes) : Option OptionValue :=
  (words.find? fun (w, _) ↦ utf8 w == s).map (·.2)

/-! ### Whole numbers -/

/-- The value of a digit or letter. -/
def digit? (b : UInt8) : Option Nat :=
  if 48 ≤ b && b ≤ 57 then some (b.toNat - 48)
  else if 97 ≤ b && b ≤ 122 then some (b.toNat - 87)
  else if 65 ≤ b && b ≤ 90 then some (b.toNat - 55)
  else none

/-- The number that digits of a base stand for. -/
def digits? (base : Nat) (s : Bytes) : Option Nat :=
  s.foldl (fun v b ↦ v.bind fun n ↦ (digit? b).bind fun d ↦
    if d < base then some (n * base + d) else none) (some 0)

/-- A sign at the start of a text: whether it is a minus, and the rest. -/
def sign? : Bytes → Option (Bool × Bytes)
  | 45 :: rest => some (true, rest)
  | 43 :: rest => some (false, rest)
  | _ => none

/-- A whole number without a sign in the base that its start names. -/
def unsigned? : Bytes → Option Nat
  | [] => none
  | 48 :: [] => some 0
  | 48 :: b :: rest =>
    if !rest.isEmpty && (b == 98 || b == 66) then digits? 2 rest
    else if !rest.isEmpty && (b == 111 || b == 79) then digits? 8 rest
    else if !rest.isEmpty && (b == 120 || b == 88) then digits? 16 rest
    else digits? 8 (b :: rest)
  | s => digits? 10 s

/-- A whole number with or without a sign, read by `read`. -/
def signed? (read : Bytes → Option Nat) (s : Bytes) : Option Int :=
  match sign? s with
  | some (minus, rest) =>
    if rest.isEmpty then none
    else (read rest).map fun n ↦ if minus then -(n : Int) else n
  | none => if s.isEmpty then none else (read s).map fun n ↦ (n : Int)

/-- Whether a number fits in 64 bits with a sign. -/
def fitsSigned (n : Int) : Bool :=
  -0x8000000000000000 ≤ n && n < 0x8000000000000000

/-- Whether a number fits in 64 bits without a sign. -/
def fitsUnsigned (n : Int) : Bool :=
  0 ≤ n && n < 0x10000000000000000

/-- The value of a whole number that fits in 64 bits. A number with a sign must fit with one. -/
def whole? (s : Bytes) : Option OptionValue := do
  let n ← signed? unsigned? s
  if fitsSigned n then return .int n
  if (sign? s).isNone && fitsUnsigned n then return .natural n.toNat
  none

/-- A whole number whose sign stands behind the mark of its base. -/
def marked? (s : Bytes) : Option OptionValue :=
  let read := fun (base : Nat) (minus : Bool) (rest : Bytes) ↦ do
    let n ← signed? (digits? base) (if minus then 45 :: rest else rest)
    if fitsSigned n then some (OptionValue.int n) else none
  match s with
  | 48 :: 98 :: rest => read 2 false rest
  | 45 :: 48 :: 98 :: rest => read 2 true rest
  | 48 :: 111 :: rest => read 8 false rest
  | 45 :: 48 :: 111 :: rest => read 8 true rest
  | _ => none

/-! ### Floating-point numbers -/

/-- The exponent of a number: none at all is zero. -/
def exponent? : Bytes → Option Int
  | [] => some 0
  | b :: rest =>
    if b == 101 || b == 69 then
      let digits := match sign? rest with
        | some (_, s) => s
        | none => rest
      if digits.isEmpty then none else signed? (digits? 10) rest
    else none

/-- The bits of a decimal number: digits with or without a point, and an exponent. A number that
is too great is none. -/
def decimal? (s : Bytes) : Option Nat := do
  let (minus, s) := (sign? s).getD (false, s)
  let whole := s.takeWhile Timestamp.isDigitByte
  let rest := s.drop whole.length
  let (fraction, rest) := match rest with
    | 46 :: others =>
      let digits := others.takeWhile Timestamp.isDigitByte
      (digits, others.drop digits.length)
    | _ => ([], rest)
  guard (!(whole.isEmpty && fraction.isEmpty))
  let exponent ← exponent? rest
  let value ← digits? 10 (whole ++ fraction)
  let bits := Binary64.ofDecimal value (exponent - fraction.length)
  guard (bits < Binary64.infinity)
  return if minus then Binary64.signBit + bits else bits

/-- Whether every underscore stands between two digits. -/
def separatesDigits : (afterDigit : Bool) → Bytes → Bool
  | _, [] => true
  | afterDigit, b :: rest =>
    if b == 95 then afterDigit && rest.head?.any Timestamp.isDigitByte
      && separatesDigits false rest
    else separatesDigits (Timestamp.isDigitByte b) rest

/-! ### All together -/

/-- The value of a scalar that starts with a digit or a sign, with its tag. -/
def number? (tag s : Bytes) : Option (Bytes × OptionValue) :=
  let plain := s.filter (· != 95)
  let time := if tag.isEmpty || tag == timeTag then Timestamp.ofText? s else none
  (time.map fun t ↦ (timeTag, .time t))
    |>.or ((whole? plain).map fun v ↦ (intTag, v))
    |>.or ((decimal? plain).map fun bits ↦ (floatTag, .float bits))
    |>.or ((marked? plain).map fun v ↦ (intTag, v))

/-- The value of a scalar that starts with a point. -/
def fraction? (s : Bytes) : Option (Bytes × OptionValue) :=
  if separatesDigits false s then
    (decimal? (s.filter (· != 95))).map fun bits ↦ (floatTag, .float bits)
  else none

/-- The tag of the value of a word. -/
def wordTag : OptionValue → Bytes
  | .bool _ => boolTag
  | .null => nullTag
  | _ => floatTag

/-- The value that a plain scalar has, with its tag; `tag` is the one that is asked for. -/
def plainValue (tag s : Bytes) : Bytes × OptionValue :=
  match word? s with
  | some v => (wordTag v, v)
  | none =>
    let found := match s with
      | [] => none
      | b :: _ =>
        if b == 46 then fraction? s
        else if b == 43 || b == 45 || Timestamp.isDigitByte b then number? tag s
        else none
    found.getD (textTag, .text s)

/-- The tags that ask for one of the values of plain scalars. -/
def resolvable : List Bytes :=
  [[], textTag, boolTag, intTag, floatTag, nullTag, timeTag]

/-- The value of a scalar with a tag, and the tag of that value. The empty tag asks for nothing
in particular. A tag that is not known leaves the text as it is. -/
def resolve (tag s : Bytes) : Except Fault (Bytes × OptionValue) :=
  let tag := shortTag tag
  if !resolvable.contains tag then .ok (tag, .text s)
  else if tag == textTag then .ok (textTag, .text s)
  else
    let (found, v) := plainValue tag s
    if tag.isEmpty || tag == found then .ok (found, v)
    else
      match v with
      | .int n =>
        if tag == floatTag then .ok (floatTag, .float (Binary64.ofInt n))
        else .error (.wrongTag found s tag)
      | _ => .error (.wrongTag found s tag)

end Scalar

end ColonGap.Yaml
