import ColonGap.Text.Bytes
import Mathlib.Data.List.Basic

/-!
# Numbers in texts

A number in decimal is read back as that number, with what stands behind it, if no further digit
follows. The digits come off the end of a number (`decimal_eq`), so that is where the inductions
take them.
-/

namespace ColonGap

/-! ### Natural numbers -/

/-- A decimal digit. -/
def isDecimalDigit (b : UInt8) : Bool :=
  48 ≤ b && b ≤ 57

/-- The number that decimal digits stand for. -/
def ofDecimal (digits : Bytes) : Nat :=
  digits.foldl (fun n b ↦ 10 * n + (b.toNat - 48)) 0

/-- The number that a text starts with, and what stands behind it. -/
def readNumber? (s : Bytes) : Option (Nat × Bytes) :=
  let digits := s.takeWhile isDecimalDigit
  if digits.isEmpty then none else some (ofDecimal digits, s.dropWhile isDecimalDigit)

/-- The character of a digit is the byte behind that of zero. -/
theorem digitChar_toUInt8 {d : Nat} (h : d < 10) :
    d.digitChar.toNat.toUInt8 = (48 + d).toUInt8 := by
  have hall : ∀ d : Fin 10, d.val.digitChar.toNat.toUInt8 = (48 + d.val).toUInt8 := by decide
  exact hall ⟨d, h⟩

/-- A number is written as what is left of it without its last digit, and that digit. -/
theorem decimal_eq (n : Nat) :
    decimal n = (if n < 10 then [] else decimal (n / 10)) ++ [(48 + n % 10).toUInt8] := by
  split
  case isTrue h =>
    rw [decimal, Nat.toDigits_of_lt_base h, Nat.mod_eq_of_lt h]
    simp [digitChar_toUInt8 h]
  case isFalse h =>
    rw [decimal, decimal, Nat.toDigits_of_base_le (by decide) (Nat.le_of_not_lt h), List.map_append,
      List.map_singleton, digitChar_toUInt8 (Nat.mod_lt _ (by decide))]

theorem decimal_ne_nil (n : Nat) : decimal n ≠ [] := by
  rw [decimal_eq]
  simp

theorem toNat_digit {d : Nat} (h : d < 10) : (48 + d).toUInt8.toNat = 48 + d := by
  rw [Nat.toUInt8_eq, UInt8.toNat_ofNat', Nat.mod_eq_of_lt (by omega)]

/-- Numbers are written in digits. -/
theorem isDecimalDigit_of_mem_decimal {n : Nat} {b : UInt8} (h : b ∈ decimal n) :
    isDecimalDigit b = true := by
  induction n using Nat.strongRecOn with
  | ind n ih =>
    rw [decimal_eq] at h
    rcases List.mem_append.1 h with h | h
    · split at h
      · cases h
      · exact ih (n / 10) (by omega) h
    · have hd := toNat_digit (Nat.mod_lt n (by decide : 10 > 0))
      obtain rfl := List.mem_singleton.1 h
      simp only [isDecimalDigit, Bool.and_eq_true, decide_eq_true_eq, UInt8.le_iff_toNat_le, hd]
      exact ⟨Nat.le_add_right _ _, by have := Nat.mod_lt n (by decide : 10 > 0); simp; omega⟩

/-- The digits of a number give the number. -/
theorem ofDecimal_decimal (n : Nat) : ofDecimal (decimal n) = n := by
  induction n using Nat.strongRecOn with
  | ind n ih =>
    have hd := toNat_digit (Nat.mod_lt n (by decide : 10 > 0))
    rw [decimal_eq, ofDecimal, List.foldl_append, List.foldl_cons, List.foldl_nil, hd]
    split
    case isTrue h =>
      rw [List.foldl_nil]
      omega
    case isFalse h =>
      have hfront := ih (n / 10) (by omega)
      rw [ofDecimal] at hfront
      rw [hfront]
      omega

/-- A number is read back if no digit follows. -/
theorem readNumber?_decimal (n : Nat) {s : Bytes} (h : ∀ b ∈ s.head?, isDecimalDigit b = false) :
    readNumber? (decimal n ++ s) = some (n, s) := by
  have hdigits : ∀ b ∈ decimal n, isDecimalDigit b = true := fun b ↦ isDecimalDigit_of_mem_decimal
  have hstop : s.takeWhile isDecimalDigit = [] ∧ s.dropWhile isDecimalDigit = s := by
    cases s with
    | nil => exact ⟨rfl, rfl⟩
    | cons b s => simp [h b rfl]
  rw [readNumber?, List.takeWhile_append_of_pos hdigits, List.dropWhile_append_of_pos hdigits,
    hstop.1, hstop.2, List.append_nil]
  simp [decimal_ne_nil, ofDecimal_decimal]

/-! ### Integers -/

/-- The integer that a text starts with, and what stands behind it. -/
def readInteger? : Bytes → Option (Int × Bytes)
  | [] => none
  | b :: s =>
    if b = 45 then (readNumber? s).map fun (n, rest) ↦ (-(n : Int), rest)
    else (readNumber? (b :: s)).map fun (n, rest) ↦ ((n : Int), rest)

/-- An integer is read back if no digit follows. -/
theorem readInteger?_signedDecimal (n : Int) {s : Bytes}
    (h : ∀ b ∈ s.head?, isDecimalDigit b = false) :
    readInteger? (signedDecimal n ++ s) = some (n, s) := by
  cases n with
  | negSucc n =>
    rw [signedDecimal, List.cons_append, readInteger?, if_pos rfl, readNumber?_decimal _ h]
    rfl
  | ofNat n =>
    have hread := readNumber?_decimal n h
    cases hdecimal : decimal n with
    | nil => exact absurd hdecimal (decimal_ne_nil n)
    | cons b digits =>
      -- A digit is no sign.
      have hb : b ≠ 45 := by
        rintro rfl
        have hdigit : isDecimalDigit 45 = true :=
          isDecimalDigit_of_mem_decimal (n := n) (by simp [hdecimal])
        exact absurd hdigit (by decide)
      rw [hdecimal] at hread
      rw [signedDecimal, hdecimal, List.cons_append, readInteger?, if_neg hb, ← List.cons_append,
        hread]
      rfl

end ColonGap
