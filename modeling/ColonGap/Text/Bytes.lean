/-!
# Texts as byte lists

A source file, a path or a configuration value is a sequence of bytes that need not be valid
UTF-8, so a text is a list of bytes here and never a `String`. Literals are written as strings
and enter through `utf8`. Offsets are byte counts, and a cut is a `take` and a `drop`.
-/

namespace ColonGap

/-- A text: the bytes of a source, a name, a path or a message. -/
abbrev Bytes := List UInt8

/-- The UTF-8 bytes of a string. -/
def utf8 (s : String) : Bytes :=
  s.toList.flatMap String.utf8EncodeChar

namespace Bytes

/-- The bytes from offset `start` up to offset `stop`. -/
def slice (s : Bytes) (start stop : Nat) : Bytes :=
  (s.drop start).take (stop - start)

/-- The offset of the first occurrence of `needle`, if there is one. The empty needle occurs at
offset 0. -/
def indexOf? (needle : Bytes) : Bytes → Option Nat
  | [] => if needle.isEmpty then some 0 else none
  | b :: rest =>
    if needle.isPrefixOf (b :: rest) then some 0 else (indexOf? needle rest).map (· + 1)

/-- The text before and after the first occurrence of the byte `sep`, without that byte. -/
def cut? (sep : UInt8) : Bytes → Option (Bytes × Bytes)
  | [] => none
  | b :: rest =>
    if b = sep then some ([], rest) else (cut? sep rest).map fun (l, r) ↦ (b :: l, r)

/-- The pieces between the occurrences of `sep`; there is always at least one piece. -/
def splitOn (sep : UInt8) : Bytes → List Bytes
  | [] => [[]]
  | b :: rest =>
    if b = sep then [] :: splitOn sep rest
    else
      match splitOn sep rest with
      | [] => [[b]]
      | piece :: pieces => (b :: piece) :: pieces

/-- The pieces one after another with `sep` between neighbours. -/
def join (sep : Bytes) : List Bytes → Bytes
  | [] => []
  | [piece] => piece
  | piece :: pieces => piece ++ sep ++ join sep pieces

/-- `n` copies of one text. -/
def repeated (n : Nat) (s : Bytes) : Bytes :=
  (List.replicate n s).flatten

/-- Byte order: the order of texts in every sorted list of this library. -/
def le : Bytes → Bytes → Bool
  | [], _ => true
  | _ :: _, [] => false
  | a :: s, b :: t => a < b || (a == b && le s t)

/-- Strict byte order. -/
def lt (s t : Bytes) : Bool :=
  !le t s

theorem le_iff (s t : Bytes) : le s t = true ↔ s ≤ t := by
  induction s generalizing t with
  | nil => simp [le]
  | cons a s ih =>
    cases t with
    | nil => simp [le]
    | cons b t =>
      rw [le, List.cons_le_cons_iff, ← ih]
      simp

/-- The order of texts is that of lists of bytes. -/
theorem lt_iff (s t : Bytes) : lt s t = true ↔ s < t := by
  rw [lt, Bool.not_eq_true', ← Bool.not_eq_true, le_iff, List.not_le]

end Bytes

/-- The bytes of a natural number in decimal. -/
def decimal (n : Nat) : Bytes :=
  (Nat.toDigits 10 n).map fun c ↦ c.toNat.toUInt8

/-- The bytes of an integer in decimal, with a leading `-` below zero. -/
def signedDecimal : Int → Bytes
  | .ofNat n => decimal n
  | .negSucc n => 45 :: decimal (n + 1)

end ColonGap
