import ColonGap.Ordering
import ColonGap.Text.Binary64
import ColonGap.Text.Quoted

/-!
# Values of rule options

An option is any value that a configuration can hold. Rules decide what they make of it; this
module only says what values there are and how they are written in messages.
-/

namespace ColonGap

/-- A calendar time in Coordinated Universal Time, in the local zone, which has the same time, or
at a fixed offset. -/
structure Moment where
  year : Nat
  month : Nat
  day : Nat
  hour : Nat
  minute : Nat
  second : Nat
  nanosecond : Nat
  /-- Minutes east of Greenwich, of which zero is the local zone; none for Coordinated Universal
  Time. -/
  offset : Option Int
deriving DecidableEq, Repr

/-- The value of an option. -/
inductive OptionValue where
  | null
  | bool (value : Bool)
  /-- A whole number that fits in 64 bits with a sign. -/
  | int (value : Int)
  /-- A whole number that fits in 64 bits only without a sign. -/
  | natural (value : Nat)
  /-- A number of the 64-bit binary format, by its bit pattern. -/
  | float (bits : Nat)
  | text (value : Bytes)
  | time (value : Moment)
  | list (items : List OptionValue)
  /-- A mapping whose keys are texts, in the order of its keys. -/
  | record (fields : List (Bytes × OptionValue))
  /-- A mapping with other keys. -/
  | mapping (entries : List (OptionValue × OptionValue))
deriving Repr, Inhabited

namespace Moment

/-- The English name of a month. -/
def monthName (month : Nat) : String :=
  ["January", "February", "March", "April", "May", "June", "July", "August", "September",
    "October", "November", "December"].getD (month - 1) ""

/-- A number with zeros in front up to a width. -/
def padded (width n : Nat) : Bytes :=
  let s := decimal n
  List.replicate (width - s.length) 48 ++ s

/-- The fraction of a second: its digits without zeros at the end. -/
def fraction (nanosecond : Nat) : Bytes :=
  if nanosecond == 0 then []
  else 46 :: ((padded 9 nanosecond).reverse.dropWhile (· == 48)).reverse

/-- A zone: the offset in hours and minutes, and its name. -/
def zone : Option Int → Bytes
  | none | some 0 => utf8 " +0000 UTC"
  | some minutes =>
    let sign : UInt8 := if minutes < 0 then 45 else 43
    let size := minutes.natAbs
    let digits := sign :: padded 2 (size / 60) ++ padded 2 (size % 60)
    32 :: digits ++ 32 :: digits

/-- The text of a time. -/
def text (t : Moment) : Bytes :=
  padded 4 t.year ++ utf8 "-" ++ padded 2 t.month ++ utf8 "-" ++ padded 2 t.day ++ utf8 " "
    ++ padded 2 t.hour ++ utf8 ":" ++ padded 2 t.minute ++ utf8 ":" ++ padded 2 t.second
    ++ fraction t.nanosecond ++ zone t.offset

/-- The literal of a zone. -/
def zoneLiteral : Option Int → Bytes
  | none => utf8 "time.UTC"
  | some 0 => utf8 "time.Local"
  | some _ => utf8 "time.Location(\"\")"

/-- A time as a literal. -/
def literal (t : Moment) : Bytes :=
  let numbers := [t.day, t.hour, t.minute, t.second, t.nanosecond].map decimal
  utf8 "time.Date(" ++ decimal t.year ++ utf8 ", time." ++ utf8 (monthName t.month) ++ utf8 ", "
    ++ Bytes.join (utf8 ", ") numbers ++ utf8 ", " ++ zoneLiteral t.offset ++ utf8 ")"

end Moment

namespace OptionValue

/-- The mapping with the given fields. -/
def ofFields (fields : List (Bytes × OptionValue)) : OptionValue :=
  record (sortBy (fun a b ↦ a.1.le b.1) fields)

/-- Numbers stand positionally below ten to this power. -/
def positionalLimit : Int := 6

mutual

/-- The text of a value in a message. -/
def render : OptionValue → Bytes
  | null => utf8 "<nil>"
  | bool b => utf8 (if b then "true" else "false")
  | int n => signedDecimal n
  | natural n => decimal n
  | float bits => Binary64.text positionalLimit bits
  | text s => s
  | time t => t.text
  | list items => 91 :: renderItems items ++ [93]
  | record fields => utf8 "map[" ++ renderFields fields ++ [93]
  | mapping entries => utf8 "map[" ++ renderEntries entries ++ [93]

/-- Values with blanks between them. -/
def renderItems : List OptionValue → Bytes
  | [] => []
  | [v] => v.render
  | v :: items => v.render ++ 32 :: renderItems items

/-- The fields of a mapping with blanks between them. -/
def renderFields : List (Bytes × OptionValue) → Bytes
  | [] => []
  | [(k, v)] => k ++ 58 :: v.render
  | (k, v) :: fields => k ++ 58 :: v.render ++ 32 :: renderFields fields

/-- The entries of a mapping with blanks between them. -/
def renderEntries : List (OptionValue × OptionValue) → Bytes
  | [] => []
  | [(k, v)] => k.render ++ 58 :: v.render
  | (k, v) :: entries => k.render ++ 58 :: v.render ++ 32 :: renderEntries entries

end

/-- The name of the type of a value. -/
def typeName : OptionValue → Bytes
  | null => utf8 "<nil>"
  | bool _ => utf8 "bool"
  | int _ => utf8 "int"
  | natural _ => utf8 "uint64"
  | float _ => utf8 "float64"
  | text _ => utf8 "string"
  | time _ => utf8 "time.Time"
  | list _ => utf8 "[]interface \x7b\x7d"
  | record _ => utf8 "map[string]interface \x7b\x7d"
  | mapping _ => utf8 "map[interface \x7b\x7d]interface \x7b\x7d"

mutual

/-- A value as a literal. -/
def literal : OptionValue → Bytes
  | null => utf8 "interface \x7b\x7d(nil)"
  | natural n => utf8 "0x" ++ (Nat.toDigits 16 n).map fun c ↦ c.toNat.toUInt8
  | text s => quoted s
  | time t => t.literal
  | list items => (list items).typeName ++ 123 :: literalItems items ++ [125]
  | record fields => (record fields).typeName ++ 123 :: literalFields fields ++ [125]
  | mapping entries => (mapping entries).typeName ++ 123 :: literalEntries entries ++ [125]
  | bool b => (bool b).render
  | int n => (int n).render
  | float bits => (float bits).render

/-- Literals with commas between them. -/
def literalItems : List OptionValue → Bytes
  | [] => []
  | [v] => v.literal
  | v :: items => v.literal ++ utf8 ", " ++ literalItems items

/-- The fields of a literal with commas between them. -/
def literalFields : List (Bytes × OptionValue) → Bytes
  | [] => []
  | [(k, v)] => quoted k ++ 58 :: v.literal
  | (k, v) :: fields => quoted k ++ 58 :: v.literal ++ utf8 ", " ++ literalFields fields

/-- The entries of a literal with commas between them. -/
def literalEntries : List (OptionValue × OptionValue) → Bytes
  | [] => []
  | [(k, v)] => k.literal ++ 58 :: v.literal
  | (k, v) :: entries => k.literal ++ 58 :: v.literal ++ utf8 ", " ++ literalEntries entries

end

end OptionValue

end ColonGap
