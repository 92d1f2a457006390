import ColonGap.Proofs.Pace
import ColonGap.Script.Lexer.Word

/-!
# Words are read alike on both sides

A word does not reach across a gap: neither a blank nor a colon nor a slash belongs to a name or
to an escape, so it ends there as it would at the end of the source. `Halts` describes what can
come behind, and each measure is shown not to care (`measure_append`, one for each of them).
-/

namespace ColonGap

/-- The code point of what may be met where a gap starts. -/
def isStopCode (c : Nat) : Bool :=
  (isBlank c && !isLineBreak c) || c == 58 || c == 47

theorem Glyph.isStop_eq (g : Glyph) : g.isStop = isStopCode g.code := rfl

/-- The stops, one by one. -/
def stopCodes : List Nat :=
  [9, 11, 12, 0x20, 0xA0, 0x1680, 0x2000, 0x2001, 0x2002, 0x2003, 0x2004, 0x2005, 0x2006, 0x2007,
    0x2008, 0x2009, 0x200A, 0x202F, 0x205F, 0x3000, 0xFEFF, 58, 47]

/-- A code that stops a word is one of the stops. -/
theorem mem_stopCodes {c : Nat} (h : isStopCode c = true) : c ∈ stopCodes := by
  simp only [isStopCode, isBlank, isSpace, isLineBreak, Bool.or_eq_true, Bool.and_eq_true,
    Bool.not_eq_true', Bool.or_eq_false_iff, beq_iff_eq, bne_iff_ne, beq_eq_false_iff_ne,
    decide_eq_true_eq] at h
  simp only [stopCodes, List.mem_cons, List.not_mem_nil, or_false]
  omega

theorem forall_stop {p : Nat → Prop} (hp : ∀ c ∈ stopCodes, p c) {c : Nat}
    (h : isStopCode c = true) : p c :=
  hp c (mem_stopCodes h)

theorem isIdentifierPart_stopCodes : ∀ c ∈ stopCodes, isIdentifierPart c = false := by
  decide +kernel

theorem not_isIdentifierPart_of_stop {c : Nat} (h : isStopCode c = true) :
    isIdentifierPart c = false :=
  forall_stop isIdentifierPart_stopCodes h

/-- A character that may stand before a gap. -/
def mayPrecede (c : Nat) : Bool :=
  !isLineBreak c && c != 47 && c != 42 && c != 92

namespace Piece

/-- Before a gap stands no backslash. -/
theorem Valid.mayPrecede {gs : List Glyph} {qs : List Piece} (h : Valid (gs.map same ++ qs))
    (hqs : startsGap qs = true) : ∀ g ∈ gs.getLast?, mayPrecede g.code = true := by
  induction gs with
  | nil => simp
  | cons g gs ih =>
    intro c hc
    cases gs with
    | nil =>
      obtain rfl : g = c := by simpa using hc
      have hprev := h.1 hqs
      simp [ColonGap.mayPrecede, hprev]
    | cons d gs => exact ih h.2 c (by simpa [List.getLast?_cons] using hc)

end Piece

namespace Script

theorem hexValue?_of_stop {c : Nat} (h : isStopCode c = true) : hexValue? (c % 256) = none :=
  forall_stop (p := fun c ↦ hexValue? (c % 256) = none) (by decide) h

/-- The characters end, or go on with a stop. -/
def Halts (cs : List Scalar) : Prop :=
  ∀ c ∈ cs.head?, isStopCode c.code = true

/-- A word halts at the end, or at a stop. -/
theorem Halts.cases {cs : List Scalar} (h : Halts cs) :
    cs = [] ∨ ∃ c rest, cs = c :: rest ∧ isStopCode c.code = true := by
  cases cs with
  | nil => exact .inl rfl
  | cons c rest => exact .inr ⟨c, rest, rfl, h c rfl⟩

/-- Where a gap starts, and at the end of the texts, both sides halt. -/
theorem halts_scalars {ps : List Piece} (hvalid : Piece.Valid ps)
    (h : ps = [] ∨ Piece.startsGap ps = true) (i : Side) : Halts (Piece.scalars i ps) := by
  rcases h with rfl | h
  · simp [Halts]
  · obtain ⟨g, gs, hgs, hstop⟩ := hvalid.exists_stop h i
    rw [Glyph.isStop_eq] at hstop
    simpa [Halts, Piece.scalars, hgs] using hstop

namespace EscapeRun

variable {cs : List Scalar}

/-- An escape in braces does not see what halts it. -/
theorem braced_append (hcs : Halts cs) (value : Option Nat) (length : Nat) (ascii : Bool)
    (gs : List Scalar) : braced value length ascii (gs ++ cs) = braced value length ascii gs := by
  induction gs generalizing value length ascii with
  | nil =>
    obtain rfl | ⟨c, rest, rfl, hc⟩ := hcs.cases
    · rfl
    · have hne : c.code ≠ 125 := forall_stop (p := (· ≠ 125)) (by decide) hc
      simp [braced, hne, hexValue?_of_stop hc]
  | cons g gs ih =>
    simp only [List.cons_append, braced]
    split
    · rfl
    · split
      · rfl
      · simp [ih]

/-- An escape of a fixed number of digits does not see what halts it. -/
theorem fixed_append (hcs : Halts cs) (value length : Nat) (ascii : Bool) (left : Nat)
    (gs : List Scalar) :
    fixed value length ascii left (gs ++ cs) = fixed value length ascii left gs := by
  induction gs generalizing value length ascii left with
  | nil =>
    obtain rfl | ⟨c, rest, rfl, hc⟩ := hcs.cases
    · rfl
    · cases left with
      | zero => rfl
      | succ left => simp [fixed, hexValue?_of_stop hc]
  | cons g gs ih =>
    cases left with
    | zero => rfl
    | succ left =>
      simp only [List.cons_append, fixed]
      split
      · rfl
      · exact ih _ _ _ _

/-- An escape does not see what halts it. -/
theorem measure_append (hcs : Halts cs) (gs : List Scalar) : measure (gs ++ cs) = measure gs := by
  match gs with
  | [] =>
    obtain rfl | ⟨c, rest, rfl, hc⟩ := hcs.cases
    · rfl
    · have hne : c.code ≠ 117 := forall_stop (p := (· ≠ 117)) (by decide) hc
      simp [measure, hne]
  | [g] =>
    obtain rfl | ⟨c, rest, rfl, hc⟩ := hcs.cases
    · rfl
    · have hne : c.code ≠ 123 := forall_stop (p := (· ≠ 123)) (by decide) hc
      simp [measure, hne, fixed, hexValue?_of_stop hc]
  | g :: h :: gs =>
    have hfixed := fixed_append hcs 0 1 true 4 (h :: gs)
    rw [List.cons_append] at hfixed
    simp [measure, braced_append hcs, hfixed]

/-- The number of characters that were read. -/
def extent : EscapeRun → Nat
  | code _ length _ | wrong length => length

/-- An escape lies in the characters it is read from. -/
theorem extent_braced_le (value : Option Nat) (n : Nat) (ascii : Bool) (gs : List Scalar) :
    (braced value n ascii gs).extent ≤ n + gs.length := by
  induction gs generalizing value n ascii with
  | nil => exact Nat.le_refl _
  | cons g gs ih =>
    simp only [List.length_cons, braced]
    split
    · split <;> simp only [extent] <;> omega
    · split
      · simp only [extent]
        omega
      · split
        · simp only [extent]
          omega
        · exact Nat.le_trans (ih _ _ _) (by omega)

/-- An escape of a fixed number of digits ends in its own text. -/
theorem extent_fixed_le (value n : Nat) (ascii : Bool) (left : Nat) (gs : List Scalar) :
    (fixed value n ascii left gs).extent ≤ n + gs.length := by
  induction gs generalizing value n ascii left with
  | nil => cases left <;> exact Nat.le_refl _
  | cons g gs ih =>
    rw [List.length_cons]
    cases left with
    | zero =>
      simp only [fixed, extent]
      omega
    | succ left =>
      simp only [fixed]
      split
      · simp only [extent]
        omega
      · exact Nat.le_trans (ih _ _ _ _) (by omega)

/-- An escape ends in its own text. -/
theorem extent_measure_le (gs : List Scalar) : (measure gs).extent ≤ gs.length := by
  match gs with
  | [] => exact Nat.le_refl _
  | [c] =>
    simp only [measure]
    split <;> simp [extent]
  | c :: d :: gs =>
    simp only [measure]
    split
    · split
      · have := extent_braced_le none 2 true gs
        simp only [List.length_cons]
        omega
      · have := extent_fixed_le 0 1 true 4 (d :: gs)
        simp only [List.length_cons] at this ⊢
        omega
    · exact Nat.zero_le _

/-- A hexadecimal digit may stand before a gap. -/
theorem mayPrecede_of_hexValue? {c d : Nat} (h : hexValue? (c % 256) = some d) (hc : c < 0x80) :
    mayPrecede c = true := by
  rw [Nat.mod_eq_of_lt (by omega)] at h
  have hne : ∀ n, hexValue? n = none → c ≠ n := by
    rintro n hn rfl
    simp [hn] at h
  simp [mayPrecede, isLineBreak, hne 10 rfl, hne 13 rfl, hne 0x2028 rfl, hne 0x2029 rfl, hne 47 rfl,
    hne 42 rfl, hne 92 rfl]

/-- The characters of an escape in braces whose digits are ASCII. -/
theorem mayPrecede_of_braced {value : Option Nat} {n code m : Nat} {ascii : Bool}
    {gs : List Scalar} (h : braced value n ascii gs = .code code m true) :
    ascii = true ∧ n < m ∧ ∀ c ∈ gs.take (m - n), mayPrecede c.code = true := by
  induction gs generalizing value n ascii with
  | nil => simp [braced] at h
  | cons g gs ih =>
    simp only [braced] at h
    split at h
    case isTrue hg =>
      split at h
      · simp only [EscapeRun.code.injEq] at h
        obtain ⟨-, rfl, rfl⟩ := h
        simp only [beq_iff_eq] at hg
        simp [hg, mayPrecede, isLineBreak]
      · simp at h
    case isFalse =>
      split at h
      · simp at h
      case h_2 d hd =>
        split at h
        · simp at h
        · obtain ⟨hascii, hlt, hall⟩ := ih h
          simp only [Bool.and_eq_true, decide_eq_true_eq] at hascii
          refine ⟨hascii.1, by omega, ?_⟩
          rw [show m - n = (m - (n + 1)) + 1 by omega, List.take_succ_cons]
          simpa using ⟨mayPrecede_of_hexValue? hd hascii.2, hall⟩

/-- The characters of an escape of fixed length whose digits are ASCII. -/
theorem mayPrecede_of_fixed {value n code m left : Nat} {ascii : Bool} {gs : List Scalar}
    (h : fixed value n ascii left gs = .code code m true) :
    ascii = true ∧ m = n + left ∧ ∀ c ∈ gs.take (m - n), mayPrecede c.code = true := by
  induction gs generalizing value n ascii left with
  | nil =>
    cases left with
    | zero =>
      simp only [fixed, EscapeRun.code.injEq] at h
      simp [h]
    | succ left => simp [fixed] at h
  | cons g gs ih =>
    cases left with
    | zero =>
      simp only [fixed, EscapeRun.code.injEq] at h
      obtain ⟨-, rfl, rfl⟩ := h
      simp
    | succ left =>
      simp only [fixed] at h
      split at h
      · simp at h
      case h_2 d hd =>
        obtain ⟨hascii, rfl, hall⟩ := ih h
        simp only [Bool.and_eq_true, decide_eq_true_eq] at hascii
        refine ⟨hascii.1, by omega, ?_⟩
        rw [Nat.add_sub_cancel_left] at hall
        rw [show n + 1 + left - n = left + 1 by omega, List.take_succ_cons]
        simpa using ⟨mayPrecede_of_hexValue? hd hascii.2, hall⟩

/-- The characters of an escape whose digits are ASCII. -/
theorem mayPrecede_of_measure {code m : Nat} {gs : List Scalar}
    (h : measure gs = .code code m true) :
    0 < m ∧ ∀ c ∈ gs.take m, mayPrecede c.code = true := by
  match gs, h with
  | [c], h =>
    simp only [measure] at h
    split at h <;> simp at h
  | c :: d :: gs, h =>
    simp only [measure] at h
    split at h
    case isTrue hc =>
      rw [beq_iff_eq] at hc
      have hc' : mayPrecede c.code = true := by simp [hc, mayPrecede, isLineBreak]
      split at h
      case isTrue hd =>
        obtain ⟨-, hlt, hall⟩ := mayPrecede_of_braced h
        rw [beq_iff_eq] at hd
        refine ⟨by omega, ?_⟩
        rw [show m = (m - 2) + 1 + 1 by omega, List.take_succ_cons, List.take_succ_cons]
        have hd' : mayPrecede d.code = true := by simp [hd, mayPrecede, isLineBreak]
        simpa using ⟨hc', hd', hall⟩
      case isFalse =>
        obtain ⟨-, rfl, hall⟩ := mayPrecede_of_fixed h
        refine ⟨by omega, ?_⟩
        rw [List.take_succ_cons]
        simpa [hc'] using hall
    · simp at h

end EscapeRun

namespace Word

variable {cs : List Scalar}

/-- Where a word halts at once it has no characters. -/
theorem measure_of_halts (hcs : Halts cs) (first : Bool) :
    measure 0 first cs = ⟨0, [], false, true⟩ := by
  obtain rfl | ⟨c, rest, rfl, hc⟩ := hcs.cases
  · rfl
  · have hne : c.code ≠ 92 := forall_stop (p := (· ≠ 92)) (by decide) hc
    simp [measure, hne, not_isIdentifierPart_of_stop hc]

/-- A word ends where the characters halt. -/
theorem measure_append (hcs : Halts cs) {skip : Nat} (first : Bool) {gs : List Scalar}
    (hskip : skip ≤ gs.length) : measure skip first (gs ++ cs) = measure skip first gs := by
  induction gs generalizing skip first with
  | nil =>
    obtain rfl : skip = 0 := by simpa using hskip
    rw [List.nil_append, measure_of_halts hcs]
    rfl
  | cons g gs ih =>
    cases skip with
    | succ skip =>
      rw [List.cons_append, measure, measure, ih first (by simpa using hskip)]
    | zero =>
      rw [List.cons_append, measure, measure, EscapeRun.measure_append hcs,
        ih false (Nat.zero_le _)]
      split
      · cases hescape : EscapeRun.measure gs with
        | code code length ascii =>
          have hle := EscapeRun.extent_measure_le gs
          rw [hescape] at hle
          simp only [ih false (show length ≤ gs.length from hle)]
        | wrong length => rfl
      · rfl

/-! ### The text of a word -/

/-- A word is as long as is skipped at least, and ends in its own text. -/
theorem count_le_length {skip : Nat} {first : Bool} {gs : List Scalar} (h : skip ≤ gs.length) :
    skip ≤ (measure skip first gs).count ∧ (measure skip first gs).count ≤ gs.length := by
  induction gs generalizing skip first with
  | nil =>
    obtain rfl : skip = 0 := by simpa using h
    exact ⟨Nat.le_refl _, Nat.le_refl _⟩
  | cons g gs ih =>
    cases skip with
    | succ skip =>
      have := @ih skip first (by simpa using h)
      simp only [measure, more, List.length_cons]
      omega
    | zero =>
      refine ⟨Nat.zero_le _, ?_⟩
      rw [measure, List.length_cons]
      split
      · have hle := EscapeRun.extent_measure_le gs
        cases hescape : EscapeRun.measure gs with
        | wrong length =>
          rw [hescape] at hle
          simp only [EscapeRun.extent] at hle
          simp only
          omega
        | code code length ascii =>
          rw [hescape] at hle
          simp only [EscapeRun.extent] at hle
          have := @ih length false hle
          dsimp only
          generalize (code != 92 && if first = true then isIdentifierStart code
            else isIdentifierPart code) = valid
          cases valid with
          | true =>
            simp only [if_true, moreCode]
            omega
          | false =>
            simp only [Bool.false_eq_true, if_false]
            omega
      · split
        · have := @ih 0 false (Nat.zero_le _)
          simp only [moreCode]
          omega
        · exact Nat.zero_le _

/-- How a well-formed word starts: with an escape, with a character, or not at all. -/
theorem cases_of_wellFormed {first : Bool} {g : Scalar} {gs : List Scalar}
    (h : (measure 0 first (g :: gs)).wellFormed = true) :
    (∃ code length, g.code = 92 ∧ EscapeRun.measure gs = .code code length true ∧ code ≠ 92 ∧
        (measure length false gs).wellFormed = true ∧
        measure 0 first (g :: gs)
          = { (measure length false gs).moreCode code with escaped := true }) ∨
      (g.code ≠ 92 ∧ isIdentifierPart g.code = true ∧ (measure 0 false gs).wellFormed = true ∧
        measure 0 first (g :: gs) = (measure 0 false gs).moreCode g.code) ∨
      (g.code ≠ 92 ∧ isIdentifierPart g.code = false ∧
        measure 0 first (g :: gs) = ⟨0, [], false, true⟩) := by
  by_cases hslash : g.code = 92
  · left
    rw [measure, hslash] at h ⊢
    simp only [beq_self_eq_true, if_true] at h ⊢
    cases hescape : EscapeRun.measure gs with
    | wrong length => simp [hescape] at h
    | code code length ascii =>
      simp only [hescape] at h
      generalize hvalid : (code != 92 && if first = true then isIdentifierStart code
        else isIdentifierPart code) = valid at h
      cases valid with
      | false => simp at h
      | true =>
        simp only [if_true, Bool.and_eq_true, bne_iff_ne] at h hvalid
        obtain ⟨hword, rfl⟩ := h
        refine ⟨code, length, trivial, rfl, hvalid.1, hword, ?_⟩
        simp [hvalid, hword, moreCode]
  · right
    have hne : (g.code == 92) = false := by simpa using hslash
    rw [measure, hne] at h ⊢
    simp only [Bool.false_eq_true, if_false] at h ⊢
    by_cases hpart : isIdentifierPart g.code
    · left
      simp only [hpart, if_true] at h ⊢
      exact ⟨hslash, trivial, h, trivial⟩
    · right
      simp [hpart, hslash]

theorem isIdentifierPart_replacement : isIdentifierPart Scalar.replacement = false := by
  decide +kernel

/-- A character other than a backslash is not written with that byte first. -/
theorem exists_encode_eq {code : Nat} (h : code ≠ 92) :
    ∃ b bs, Utf8.encode code = b :: bs ∧ b ≠ 92 := by
  have hbyte : ∀ n : Nat, n % 256 ≠ 92 → n.toUInt8 ≠ 92 := by
    intro n hn heq
    exact hn (by simpa using congrArg UInt8.toNat heq)
  unfold Utf8.encode
  split_ifs with h1 h2 h3
  · exact ⟨_, _, rfl, hbyte code (by omega)⟩
  · exact ⟨_, _, rfl, hbyte (0xC0 + code / 64) (by omega)⟩
  · exact ⟨_, _, rfl, by decide⟩
  · exact ⟨_, _, rfl, hbyte (0xE0 + code / 4096) (by omega)⟩
  · simp only [Bool.or_eq_true, Bool.and_eq_true, decide_eq_true_eq] at h3
    exact ⟨_, _, rfl, hbyte (0xF0 + code / 262144) (by omega)⟩

/-- **Exact names.** If the text of a well-formed word starts with its name, then the word is
spelt just as its name is. -/
theorem name_eq_of_prefix {first : Bool} {gs : List Glyph}
    (hcut : Utf8.glyphs (gs.flatMap Glyph.bytes) = gs)
    (hword : (measure 0 first (gs.map Glyph.scalar)).wellFormed = true)
    (hstart : (measure 0 first (gs.map Glyph.scalar)).name <+: gs.flatMap Glyph.bytes) :
    (measure 0 first (gs.map Glyph.scalar)).name
      = (gs.take (measure 0 first (gs.map Glyph.scalar)).count).flatMap Glyph.bytes := by
  induction gs generalizing first with
  | nil => rfl
  | cons g gs ih =>
    have hrest := @Utf8.glyphs_flatMap_of_append _ [g] _ hcut
    rcases cases_of_wellFormed hword with
      ⟨code, length, hslash, -, hcode, -, hmeasure⟩ | ⟨-, hpart, hword', hmeasure⟩ |
      ⟨-, -, hmeasure⟩
    · -- The text starts with a backslash and the name does not.
      exfalso
      have hbytes : g.bytes = [92] := by
        rw [Utf8.bytes_of_code_lt (s := (g :: gs).flatMap Glyph.bytes) (by rw [hcut]; simp)
          (by simp_all), show g.code = 92 from hslash]
        rfl
      obtain ⟨b, bs, hencode, hb⟩ := exists_encode_eq hcode
      rw [List.map_cons, hmeasure] at hstart
      simp only [moreCode, hencode, List.cons_append, List.flatMap_cons, hbytes, List.nil_append,
        List.cons_prefix_cons] at hstart
      exact hb hstart.1
    · have hreplacement : g.code ≠ Scalar.replacement := by
        rintro h
        rw [Glyph.scalar_code, h, isIdentifierPart_replacement] at hpart
        exact Bool.false_ne_true hpart
      have hencode := Utf8.encode_of_cut hcut hreplacement
      rw [List.map_cons, hmeasure] at hstart ⊢
      simp only [moreCode, Glyph.scalar_code, hencode, List.flatMap_cons,
        List.prefix_append_right_inj] at hstart
      simp only [moreCode, Glyph.scalar_code, hencode, List.take_succ_cons, List.flatMap_cons]
      rw [ih hrest hword' hstart]
    · rw [List.map_cons, hmeasure]
      rfl

/-- A word without an escape is spelt as its name is. -/
theorem name_eq_of_not_escaped {first : Bool} {gs : List Glyph}
    (hcut : Utf8.glyphs (gs.flatMap Glyph.bytes) = gs)
    (hword : (measure 0 first (gs.map Glyph.scalar)).wellFormed = true)
    (hescaped : (measure 0 first (gs.map Glyph.scalar)).escaped = false) :
    (measure 0 first (gs.map Glyph.scalar)).name
      = (gs.take (measure 0 first (gs.map Glyph.scalar)).count).flatMap Glyph.bytes := by
  induction gs generalizing first with
  | nil => rfl
  | cons g gs ih =>
    have hrest := @Utf8.glyphs_flatMap_of_append _ [g] _ hcut
    rcases cases_of_wellFormed hword with
      ⟨code, length, -, -, -, -, hmeasure⟩ | ⟨-, hpart, hword', hmeasure⟩ | ⟨-, -, hmeasure⟩
    · rw [List.map_cons, hmeasure] at hescaped
      simp at hescaped
    · have hreplacement : g.code ≠ Scalar.replacement := by
        rintro h
        rw [Glyph.scalar_code, h, isIdentifierPart_replacement] at hpart
        exact Bool.false_ne_true hpart
      have hencode := Utf8.encode_of_cut hcut hreplacement
      rw [List.map_cons, hmeasure] at hescaped ⊢
      simp only [moreCode, Glyph.scalar_code, hencode, List.take_succ_cons, List.flatMap_cons]
      rw [ih hrest hword' hescaped]
    · rw [List.map_cons, hmeasure]
      rfl

/-- A part of an identifier may stand before a gap, unless it is a backslash. -/
theorem mayPrecede_of_isIdentifierPart {c : Nat} (h : isIdentifierPart c = true) (h92 : c ≠ 92) :
    mayPrecede c = true := by
  have hne : ∀ n, isIdentifierPart n = false → c ≠ n := by
    rintro n hn rfl
    simp [hn] at h
  simp [mayPrecede, isLineBreak, hne 10 (by decide +kernel), hne 13 (by decide +kernel),
    hne 0x2028 (by decide +kernel), hne 0x2029 (by decide +kernel), hne 47 (by decide +kernel),
    hne 42 (by decide +kernel), h92]

/-- The last character of a well-formed word may stand before a gap, although a backslash in the
word may not. -/
theorem mayPrecede_of_wellFormed {skip : Nat} {first : Bool} {gs : List Scalar}
    (hskip : skip ≤ gs.length) (hescape : ∀ c ∈ gs.take skip, mayPrecede c.code = true)
    (hword : (measure skip first gs).wellFormed = true) :
    ∀ c ∈ (gs.take (measure skip first gs).count).getLast?, mayPrecede c.code = true := by
  induction gs generalizing skip first with
  | nil => simp
  | cons g gs ih =>
    -- What is last is last among the characters behind `g`, or `g` itself.
    have hcons : ∀ n, (∀ c ∈ (gs.take n).getLast?, mayPrecede c.code = true) →
        (n = 0 ∨ gs = [] → mayPrecede g.code = true) →
        ∀ c ∈ ((g :: gs).take (n + 1)).getLast?, mayPrecede c.code = true := by
      intro n hlast hg c hc
      rw [List.take_succ_cons, List.getLast?_cons] at hc
      cases hrest : (gs.take n).getLast? with
      | none =>
        rw [hrest] at hc
        obtain rfl : g = c := by simpa using hc
        refine hg ?_
        simpa [List.getLast?_eq_none_iff, List.take_eq_nil_iff] using hrest
      | some d =>
        rw [hrest] at hc
        obtain rfl : d = c := by simpa using hc
        exact hlast d hrest
    cases skip with
    | succ skip =>
      have hescape' : mayPrecede g.code = true ∧ ∀ c ∈ gs.take skip, mayPrecede c.code = true := by
        simpa using hescape
      exact hcons _ (ih (by simpa using hskip) hescape'.2 hword) fun _ ↦ hescape'.1
    | zero =>
      rcases cases_of_wellFormed hword with
        ⟨code, length, -, hrun, -, hword', hmeasure⟩ | ⟨hne, hpart, hword', hmeasure⟩ |
        ⟨-, -, hmeasure⟩
      · obtain ⟨hpos, hall⟩ := EscapeRun.mayPrecede_of_measure hrun
        have hle : length ≤ gs.length := by
          have hextent := EscapeRun.extent_measure_le gs
          rwa [hrun] at hextent
        rw [hmeasure]
        refine hcons _ (ih hle hall hword') ?_
        -- An escape is not empty, so the backslash is not last.
        have hcount := (@count_le_length length false gs hle).1
        rintro (h | rfl)
        · omega
        · simp only [List.length_nil] at hle
          omega
      · rw [hmeasure]
        exact hcons _ (ih (Nat.zero_le _) (by simp) hword') fun _ ↦
          mayPrecede_of_isIdentifierPart hpart hne
      · rw [hmeasure]
        simp

end Word

end Script

end ColonGap
