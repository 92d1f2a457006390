import ColonGap.OptionValue

/-!
# Timestamps

A timestamp is a date, or a date and a time of day. A time behind the letter `T` must say how far
it is from Coordinated Universal Time; one behind a blank must not.
-/

namespace ColonGap.Yaml

namespace Timestamp

/-- Whether a byte is a decimal digit. -/
def isDigitByte (b : UInt8) : Bool :=
  48 ≤ b && b ≤ 57

/-- The value of a digit. -/
def digitValue (b : UInt8) : Nat :=
  b.toNat - 48

/-- A number of one or two digits at the start of a text. -/
def number? : Bytes → Option (Nat × Bytes)
  | a :: b :: rest =>
    if isDigitByte a then
      if isDigitByte b then some (digitValue a * 10 + digitValue b, rest)
      else some (digitValue a, b :: rest)
    else none
  | [a] => if isDigitByte a then some (digitValue a, []) else none
  | [] => none

/-- A number of exactly two digits at the start of a text. -/
def twoDigits? : Bytes → Option (Nat × Bytes)
  | a :: b :: rest =>
    if isDigitByte a && isDigitByte b then some (digitValue a * 10 + digitValue b, rest) else none
  | _ => none

/-- A text without the byte it starts with. -/
def after? (b : UInt8) : Bytes → Option Bytes
  | c :: rest => if b == c then some rest else none
  | [] => none

/-- Whether a year has a leap day. -/
def isLeap (year : Nat) : Bool :=
  year % 4 == 0 && (year % 100 != 0 || year % 400 == 0)

/-- The number of days of a month. -/
def daysIn (year month : Nat) : Nat :=
  if month == 2 then (if isLeap year then 29 else 28)
  else if month == 4 || month == 6 || month == 9 || month == 11 then 30
  else 31

/-- The date at the start of a text: a year of four digits, a month and a day. -/
def date? (s : Bytes) : Option (Moment × Bytes) := do
  let digits := s.take 4
  guard (digits.length == 4 && digits.all isDigitByte)
  let year := digits.foldl (fun v b ↦ v * 10 + digitValue b) 0
  let rest ← after? 45 (s.drop 4)
  let (month, rest) ← number? rest
  guard (1 ≤ month && month ≤ 12)
  let rest ← after? 45 rest
  let (day, rest) ← number? rest
  guard (1 ≤ day && day ≤ daysIn year month)
  return (⟨year, month, day, 0, 0, 0, 0, none⟩, rest)

/-- The fraction of a second at the start of a text, in nanoseconds; further digits are dropped.
It is not there if no digit follows the point or comma. -/
def fraction (s : Bytes) : Nat × Bytes :=
  match s with
  | b :: rest =>
    let digits := rest.takeWhile isDigitByte
    if (b == 46 || b == 44) && !digits.isEmpty then
      let kept := (digits ++ List.replicate 9 48).take 9
      (kept.foldl (fun v d ↦ v * 10 + digitValue d) 0, rest.drop digits.length)
    else (0, s)
  | [] => (0, s)

/-- The time of day at the start of a text. -/
def clock? (t : Moment) (s : Bytes) : Option (Moment × Bytes) := do
  let (hour, rest) ← number? s
  guard (hour < 24)
  let rest ← after? 58 rest
  let (minute, rest) ← number? rest
  guard (minute < 60)
  let rest ← after? 58 rest
  let (second, rest) ← number? rest
  guard (second < 60)
  let (nanosecond, rest) := fraction rest
  return ({ t with hour := hour, minute := minute, second := second, nanosecond := nanosecond },
    rest)

/-- The distance from Coordinated Universal Time at the start of a text, in minutes. -/
def zone? : Bytes → Option (Option Int × Bytes)
  | 90 :: rest => some (none, rest)
  | sign :: rest => do
    guard (sign == 43 || sign == 45)
    let (hours, rest) ← twoDigits? rest
    let rest ← after? 58 rest
    let (minutes, rest) ← twoDigits? rest
    guard (hours ≤ 24 && minutes ≤ 60)
    let size : Int := (hours * 60 + minutes : Nat)
    return (some (if sign == 45 then -size else size), rest)
  | [] => none

/-- The timestamp that a text is. -/
def ofText? (s : Bytes) : Option Moment := do
  let (date, rest) ← date? s
  match rest with
  | [] => return date
  | b :: rest =>
    if b == 84 || b == 116 then
      let (t, rest) ← clock? date rest
      let (offset, rest) ← zone? rest
      guard rest.isEmpty
      return { t with offset := offset }
    else
      guard (b == 32)
      let (t, rest) ← clock? date (rest.dropWhile (· == 32))
      guard rest.isEmpty
      return t

end Timestamp

end ColonGap.Yaml
