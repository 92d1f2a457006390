import ColonGap.OptionValue
import ColonGap.Yaml.Timestamp

/-!
# The keys of a mapping

Keys of different types differ. In the text of a mapping the keys stand in order: null first,
then whole numbers, other numbers, truth values, texts and times, and keys of one type by their
values.
-/

namespace ColonGap.Yaml

namespace Key

/-- The rank of a key among keys of other types. -/
def rank : OptionValue → Nat
  | .null => 0
  | .natural _ => 1
  | .int _ => 2
  | .float _ => 3
  | .bool _ => 4
  | .text _ => 5
  | .time _ => 6
  | _ => 7

/-- Whether a bit pattern is that of a number. -/
def isNumber (bits : Nat) : Bool :=
  bits % Binary64.signBit ≤ Binary64.infinity

/-- A whole number that orders floating-point numbers as their values do. -/
def floatOrder (bits : Nat) : Int :=
  if bits < Binary64.signBit then (bits : Int) else -((bits - Binary64.signBit : Nat) : Int)

/-- Whether a floating-point number is not greater than another; what is not a number comes
first. -/
def floatLe (a b : Nat) : Bool :=
  if !isNumber a then true else if !isNumber b then false else floatOrder a ≤ floatOrder b

/-- The seconds from the start of the calendar to a time. -/
def seconds (t : Moment) : Int :=
  let days : Nat := (List.range (t.month - 1)).foldl
    (fun d m ↦ d + Timestamp.daysIn t.year (m + 1)) 0
  let y := t.year - 1
  let before : Int := if t.year == 0 then -366 else (365 * y + y / 4 - y / 100 + y / 400 : Nat)
  ((before + days + t.day) * 24 + t.hour) * 3600 + t.minute * 60 + t.second
    - t.offset.getD 0 * 60

/-- Whether an offset is a whole number of hours that is in use as a zone: from 12 hours west of
Greenwich to 14 hours east of it. -/
def isWholeHour (offset : Int) : Bool :=
  offset % 60 == 0 && -12 * 60 ≤ offset && offset ≤ 14 * 60

/-- The rank of a zone among times that are the same moment. -/
def zoneRank : Option Int → Nat
  | none => 0
  | some 0 => 1
  | some offset => if isWholeHour offset then (offset + 12 * 60).toNat + 2 else 2 * 60 * 24

/-- The order of times: by the fraction of the second, then by the second, then by the zone. -/
def timeLe (a b : Moment) : Bool :=
  if a.nanosecond != b.nanosecond then a.nanosecond < b.nanosecond
  else if seconds a != seconds b then seconds a < seconds b
  else zoneRank a.offset ≤ zoneRank b.offset

/-- The order of keys. -/
def le : OptionValue → OptionValue → Bool
  | .natural m, .natural n => m ≤ n
  | .int m, .int n => m ≤ n
  | .float m, .float n => floatLe m n
  | .bool m, .bool n => !m || n
  | .text m, .text n => m.le n
  | .time m, .time n => timeLe m n
  | a, b => rank a ≤ rank b

/-- Whether two keys are the same. What is not a number is never the same, and neither are times
at an offset that is not a whole number of hours. -/
def same : OptionValue → OptionValue → Bool
  | .null, .null => true
  | .natural m, .natural n => m == n
  | .int m, .int n => m == n
  | .float m, .float n => isNumber m && isNumber n && floatOrder m == floatOrder n
  | .bool m, .bool n => m == n
  | .text m, .text n => m == n
  | .time m, .time n => m == n && m.offset.all isWholeHour
  | _, _ => false

/-- Whether a value is a collection, which cannot be a key. -/
def isCollection : OptionValue → Bool
  | .list _ | .record _ | .mapping _ => true
  | _ => false

/-- Set the value of a key in entries that are in order. -/
def put (key value : OptionValue) : List (OptionValue × OptionValue) →
    List (OptionValue × OptionValue)
  | [] => [(key, value)]
  | (k, v) :: entries =>
    if same k key then (key, value) :: entries
    else if le k key then (k, v) :: put key value entries
    else (key, value) :: (k, v) :: entries

end Key

end ColonGap.Yaml
