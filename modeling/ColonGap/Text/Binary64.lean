import ColonGap.Text.Bytes

/-!
# Binary floating-point numbers as texts

A number of the 64-bit binary format is kept as its bit pattern. Reading a decimal rounds it to
the nearest such number, a tie going to the even significand. Writing one takes the fewest
digits that read back as the same number, and of those the nearest. Both are exact: they work on
quotients of natural numbers.
-/

namespace ColonGap

namespace Binary64

/-- The quotient rounded to the nearest whole number, a tie going to the even one. -/
def roundQuotient (num den : Nat) : Nat :=
  let q := num / den
  let r := num % den
  if 2 * r < den then q else if den < 2 * r then q + 1 else if q % 2 == 0 then q else q + 1

/-- The bit pattern of positive infinity. -/
def infinity : Nat := 0x7FF0000000000000

/-- The bit pattern of the number that is not a number. -/
def notANumber : Nat := 0x7FF8000000000001

/-- The bit of the sign. -/
def signBit : Nat := 0x8000000000000000

/-- The leading bit of a significand with all its 53 bits. -/
def leadingBit : Nat := 0x10000000000000

/-- The whole binary logarithm of a positive quotient. -/
def log2Quotient (num den : Nat) : Int :=
  let k : Int := (Nat.log2 num : Int) - (Nat.log2 den : Int)
  let reaches := if 0 ≤ k then den <<< k.toNat ≤ num else den ≤ num <<< (-k).toNat
  if reaches then k else k - 1

/-- The pattern of the number nearest to a quotient. -/
def ofQuotient (num den : Nat) : Nat :=
  if num == 0 then 0
  else
    let q : Int := max (log2Quotient num den - 52) (-1074)
    let m := if 0 ≤ q then roundQuotient num (den <<< q.toNat)
      else roundQuotient (num <<< (-q).toNat) den
    -- a significand of 2 ^ 53 carries into the exponent field by itself
    if m < leadingBit then m
    else min ((q + 1074).toNat * leadingBit + m) infinity

/-- The pattern of the number nearest to `digits · 10 ^ exponent`. Beyond a few hundred places
the result no longer depends on the digits. -/
def ofDecimal (digits : Nat) (exponent : Int) : Nat :=
  if digits == 0 then 0
  else
    let places : Int := ((Nat.toDigits 10 digits).length : Int) + exponent
    if 400 < places then infinity
    else if places < -400 then 0
    else if 0 ≤ exponent then ofQuotient (digits * Nat.pow 10 exponent.toNat) 1
    else ofQuotient digits (Nat.pow 10 (-exponent).toNat)

/-- The pattern of the number nearest to a whole number. -/
def ofInt : Int → Nat
  | .ofNat n => ofQuotient n 1
  | .negSucc n => signBit + ofQuotient (n + 1) 1

/-- A finite positive number as `significand · 2 ^ exponent`. -/
def decode (bits : Nat) : Nat × Int :=
  let field : Nat := bits / leadingBit % 2048
  let fraction : Nat := bits % leadingBit
  if field == 0 then (fraction, -1074) else (leadingBit + fraction, (field : Int) - 1075)

/-- Digits and the place of the point: `0.d₁d₂… · 10 ^ point`. -/
structure Digits where
  digits : Nat
  point : Int
deriving DecidableEq, Repr

/-- Whether a quotient reads back as the number with the given pattern. -/
def readsBack (bits num den : Nat) : Bool :=
  ofQuotient num den == bits

/-- The decimal exponent of a positive quotient: the least `k` with `num / den < 10 ^ k`, found
by counting up from `k`. -/
def pointFrom (num den : Nat) : (fuel : Nat) → Int → Int
  | 0, k => k
  | fuel + 1, k =>
    let below := if 0 ≤ k then num < den * Nat.pow 10 k.toNat
      else num * Nat.pow 10 (-k).toNat < den
    if below then k else pointFrom num den fuel (k + 1)

/-- The number with `n` digits next to a quotient that reads back as the pattern, the nearer of
the two neighbours first. -/
def withDigits? (bits num den : Nat) (point : Int) (n : Nat) : Option Digits :=
  -- the quotient in units of the last place
  let shift : Int := n - point
  let (num', den') := if 0 ≤ shift then (num * Nat.pow 10 shift.toNat, den)
    else (num, den * Nat.pow 10 (-shift).toNat)
  let low := num' / den'
  let reads := fun d ↦
    if 0 ≤ shift then readsBack bits d (Nat.pow 10 shift.toNat)
    else readsBack bits (d * Nat.pow 10 (-shift).toNat) 1
  let lowFirst := 2 * (num' % den') ≤ den'
  let first := if lowFirst then low else low + 1
  let second := if lowFirst then low + 1 else low
  let pick := fun d ↦ if d == Nat.pow 10 n then Digits.mk (d / 10) (point + 1) else ⟨d, point⟩
  if reads first then some (pick first) else if reads second then some (pick second) else none

/-- The fewest digits of a finite positive number that read back as it. -/
def shortest (bits : Nat) : Digits :=
  let (m, q) := decode bits
  let (num, den) := if 0 ≤ q then (m <<< q.toNat, 1) else (m, 1 <<< (-q).toNat)
  let guess : Int := (log2Quotient num den) * 30103 / 100000 - 1
  let point := pointFrom num den 5 guess
  ((List.range 17).findSome? fun i ↦ withDigits? bits num den point (i + 1)).getD ⟨0, 0⟩

/-- Digits without zeros at the end. -/
def trimZeros : (fuel : Nat) → Nat → Nat
  | 0, d => d
  | fuel + 1, d => if d != 0 && d % 10 == 0 then trimZeros fuel (d / 10) else d

/-- Digits with a point behind the first one and an exponent of at least two digits. -/
def scientific (digits : Bytes) (exponent : Int) : Bytes :=
  let head := match digits with
    | [] => []
    | [d] => [d]
    | d :: rest => d :: 46 :: rest
  let size := exponent.natAbs
  head ++ [101, if exponent < 0 then 45 else 43] ++ (if size < 10 then [48] else [])
    ++ decimal size

/-- Digits with the point in its place. -/
def positional (digits : Bytes) (point : Int) : Bytes :=
  if point ≤ 0 then utf8 "0." ++ List.replicate (-point).toNat 48 ++ digits
  else
    let n := point.toNat
    if digits.length ≤ n then digits ++ List.replicate (n - digits.length) 48
    else digits.take n ++ 46 :: digits.drop n

/-- The text of a number: positional if its decimal exponent lies between -4 and `limit`, the
latter excluded, and in scientific notation otherwise. -/
def text (limit : Int) (bits : Nat) : Bytes :=
  let magnitude := bits % signBit
  let sign : Bytes := if bits < signBit then [] else [45]
  if infinity < magnitude then utf8 "NaN"
  else if magnitude == infinity then (if sign.isEmpty then utf8 "+Inf" else utf8 "-Inf")
  else if magnitude == 0 then sign ++ [48]
  else
    let d := shortest magnitude
    let digits := decimal (trimZeros 20 d.digits)
    let exponent := d.point - 1
    sign ++ (if exponent < -4 || limit ≤ exponent then scientific digits exponent
      else positional digits d.point)

end Binary64

end ColonGap
