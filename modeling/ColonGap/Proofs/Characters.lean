import ColonGap.Text.Utf8
import Mathlib.Data.List.Basic
import Mathlib.Tactic.Common

/-!
# Characters with their bytes

`Utf8.scalars` forgets the bytes of a character, and two malformed bytes read alike. Statements
that compare two texts need the bytes too, so a `Glyph` keeps a code point together with what it
is written with, and `glyphs` cuts a text into them.

## Where a text may be cut

A cut is harmless where the second piece does not start with a tail byte: the two pieces then
read as they did together (`glyphs_append`). Nothing is asked of the first piece, which may be
malformed or broken off in the middle of a sequence; the reason is that a tail byte is the only
thing a sequence can go on with (`ofLead_append`).
-/

namespace ColonGap

/-- A character together with the bytes it is written with. -/
structure Glyph where
  /-- The code point. -/
  code : Nat
  /-- The bytes. -/
  bytes : Bytes
deriving DecidableEq, Repr

namespace Glyph

/-- The number of bytes. -/
def width (g : Glyph) : Nat :=
  g.bytes.length

/-- The character without its bytes. -/
def scalar (g : Glyph) : Scalar :=
  ⟨g.code, g.bytes.length⟩

@[simp] theorem scalar_code (g : Glyph) : g.scalar.code = g.code := rfl

@[simp] theorem scalar_width (g : Glyph) : g.scalar.width = g.width := rfl

end Glyph

namespace Utf8

/-! ### The first character -/

theorem ofLead_of_lt {b : UInt8} (h : b < 0x80) (rest : Bytes) :
    ofLead b rest = ⟨b.toNat, 1⟩ := by
  simp [ofLead, h]

/-- The ways to read a first character, with the ranges of its bytes. -/
inductive Reads (b : UInt8) (rest : Bytes) : Scalar → Prop
  | ascii (hb : b.toNat < 0x80) : Reads b rest ⟨b.toNat, 1⟩
  | malformed (hb : 0x80 ≤ b.toNat) : Reads b rest .malformed
  | two {c : UInt8} {more : Bytes} (hrest : rest = c :: more) (hb : 0xC2 ≤ b.toNat)
      (hb' : b.toNat ≤ 0xDF) (hc : 0x80 ≤ c.toNat) (hc' : c.toNat ≤ 0xBF) :
      Reads b rest ⟨(b.toNat - 0xC0) * 64 + (c.toNat - 0x80), 2⟩
  | three {c d : UInt8} {more : Bytes} (hrest : rest = c :: d :: more) (hb : 0xE0 ≤ b.toNat)
      (hb' : b.toNat ≤ 0xEF) (hE0 : b.toNat = 0xE0 → 0xA0 ≤ c.toNat)
      (hED : b.toNat = 0xED → c.toNat ≤ 0x9F) (hc : 0x80 ≤ c.toNat) (hc' : c.toNat ≤ 0xBF)
      (hd : 0x80 ≤ d.toNat) (hd' : d.toNat ≤ 0xBF) :
      Reads b rest ⟨(b.toNat - 0xE0) * 4096 + (c.toNat - 0x80) * 64 + (d.toNat - 0x80), 3⟩
  | four {c d e : UInt8} {more : Bytes} (hrest : rest = c :: d :: e :: more)
      (hb : 0xF0 ≤ b.toNat) (hb' : b.toNat ≤ 0xF4) (hF0 : b.toNat = 0xF0 → 0x90 ≤ c.toNat)
      (hF4 : b.toNat = 0xF4 → c.toNat ≤ 0x8F) (hc : 0x80 ≤ c.toNat) (hc' : c.toNat ≤ 0xBF)
      (hd : 0x80 ≤ d.toNat) (hd' : d.toNat ≤ 0xBF) (he : 0x80 ≤ e.toNat) (he' : e.toNat ≤ 0xBF) :
      Reads b rest ⟨(b.toNat - 0xF0) * 262144 + (c.toNat - 0x80) * 4096 + (d.toNat - 0x80) * 64
        + (e.toNat - 0x80), 4⟩

theorem isTail_iff {c : UInt8} : isTail c = true ↔ 0x80 ≤ c.toNat ∧ c.toNat ≤ 0xBF := by
  simp [isTail, UInt8.le_iff_toNat_le]

/-- A lead byte of two reads a sequence of two bytes, or is malformed. -/
theorem reads_two {b : UInt8} {rest : Bytes} (hb : 0xC2 ≤ b.toNat) (hb' : b.toNat ≤ 0xDF) :
    Reads b rest (two b rest) := by
  fun_cases two b rest with
  | case1 c more h =>
    obtain ⟨hc, hc'⟩ := isTail_iff.1 h
    exact .two rfl hb hb' hc hc'
  | case2 | case3 => exact .malformed (by omega)

/-- A lead byte of three reads a sequence of three bytes, or is malformed, within the bounds of its
second byte. -/
theorem reads_three {b low high : UInt8} {rest : Bytes} (hb : 0xE0 ≤ b.toNat)
    (hb' : b.toNat ≤ 0xEF) (hlow : 0x80 ≤ low.toNat) (hhigh : high.toNat ≤ 0xBF)
    (hE0 : b.toNat = 0xE0 → 0xA0 ≤ low.toNat) (hED : b.toNat = 0xED → high.toNat ≤ 0x9F) :
    Reads b rest (three b low high rest) := by
  fun_cases three b low high rest with
  | case1 c d more h =>
    simp only [Bool.and_eq_true, decide_eq_true_eq, UInt8.le_iff_toNat_le, isTail_iff] at h
    obtain ⟨⟨hc, hc'⟩, hd, hd'⟩ := h
    exact .three rfl hb hb' (fun h ↦ by have := hE0 h; omega) (fun h ↦ by have := hED h; omega)
      (by omega) (by omega) hd hd'
  | case2 | case3 => exact .malformed (by omega)

/-- A lead byte of four reads a sequence of four bytes, or is malformed, within the bounds of its
second byte. -/
theorem reads_four {b low high : UInt8} {rest : Bytes} (hb : 0xF0 ≤ b.toNat)
    (hb' : b.toNat ≤ 0xF4) (hlow : 0x80 ≤ low.toNat) (hhigh : high.toNat ≤ 0xBF)
    (hF0 : b.toNat = 0xF0 → 0x90 ≤ low.toNat) (hF4 : b.toNat = 0xF4 → high.toNat ≤ 0x8F) :
    Reads b rest (four b low high rest) := by
  fun_cases four b low high rest with
  | case1 c d e more h =>
    simp only [Bool.and_eq_true, decide_eq_true_eq, UInt8.le_iff_toNat_le, isTail_iff] at h
    obtain ⟨⟨⟨hc, hc'⟩, hd, hd'⟩, he, he'⟩ := h
    exact .four rfl hb hb' (fun h ↦ by have := hF0 h; omega) (fun h ↦ by have := hF4 h; omega)
      (by omega) (by omega) hd hd' he he'
  | case2 | case3 => exact .malformed (by omega)

/-- **The table of lead bytes**, as what it says about code points. -/
theorem reads_ofLead (b : UInt8) (rest : Bytes) : Reads b rest (ofLead b rest) := by
  unfold ofLead
  simp only [UInt8.lt_iff_toNat_lt, UInt8.le_iff_toNat_le, beq_iff_eq, ← UInt8.toNat_inj,
    UInt8.reduceToNat]
  by_cases hascii : b.toNat < 0x80
  · rw [if_pos hascii]
    exact .ascii hascii
  rw [if_neg hascii]
  by_cases hstray : b.toNat < 0xC2
  · rw [if_pos hstray]
    exact .malformed (by omega)
  rw [if_neg hstray]
  by_cases htwo : b.toNat ≤ 0xDF
  · rw [if_pos htwo]
    exact reads_two (by omega) htwo
  rw [if_neg htwo]
  by_cases hE0 : b.toNat = 0xE0
  · rw [if_pos hE0]
    exact reads_three (by omega) (by omega) (by decide) (by decide) (fun _ ↦ by decide)
      (fun h ↦ by omega)
  rw [if_neg hE0]
  by_cases hED : b.toNat = 0xED
  · rw [if_pos hED]
    exact reads_three (by omega) (by omega) (by decide) (by decide) (fun h ↦ absurd h hE0)
      (fun _ ↦ by decide)
  rw [if_neg hED]
  by_cases hthree : b.toNat ≤ 0xEF
  · rw [if_pos hthree]
    exact reads_three (by omega) hthree (by decide) (by decide) (fun h ↦ absurd h hE0)
      (fun h ↦ absurd h hED)
  rw [if_neg hthree]
  by_cases hF0 : b.toNat = 0xF0
  · rw [if_pos hF0]
    exact reads_four (by omega) (by omega) (by decide) (by decide) (fun _ ↦ by decide)
      (fun h ↦ by omega)
  rw [if_neg hF0]
  by_cases hfour : b.toNat ≤ 0xF3
  · rw [if_pos hfour]
    exact reads_four (by omega) (by omega) (by decide) (by decide) (fun h ↦ absurd h hF0)
      (fun h ↦ by omega)
  rw [if_neg hfour]
  by_cases hF4 : b.toNat = 0xF4
  · rw [if_pos hF4]
    exact reads_four (by omega) (by omega) (by decide) (by decide) (fun h ↦ absurd h hF0)
      (fun _ ↦ by decide)
  rw [if_neg hF4]
  exact .malformed (by omega)

/-- Every character has a byte. -/
theorem one_le_width_ofLead (b : UInt8) (rest : Bytes) : 1 ≤ (ofLead b rest).width := by
  have h := reads_ofLead b rest
  generalize ofLead b rest = c at h ⊢
  cases h <;> simp [Scalar.malformed]

/-- A character has no more bytes than there are. -/
theorem width_ofLead_le (b : UInt8) (rest : Bytes) :
    (ofLead b rest).width ≤ rest.length + 1 := by
  have h := reads_ofLead b rest
  generalize ofLead b rest = c at h ⊢
  cases h with
  | ascii | malformed => simp [Scalar.malformed]
  | two hrest | three hrest | four hrest => simp [hrest]

/-- Behind its first byte a character has tail bytes only. -/
theorem isTail_of_mem_ofLead {b t : UInt8} {rest : Bytes}
    (ht : t ∈ rest.take ((ofLead b rest).width - 1)) : isTail t = true := by
  have h := reads_ofLead b rest
  generalize ofLead b rest = c at h ht
  rw [isTail_iff]
  cases h with
  | ascii | malformed => simp [Scalar.malformed] at ht
  | @two c _ hrest =>
    obtain rfl : t = c := by simpa [hrest] using ht
    omega
  | @three c d _ hrest =>
    obtain rfl | rfl : t = c ∨ t = d := by simpa [hrest] using ht
    all_goals omega
  | @four c d e _ hrest =>
    obtain rfl | rfl | rfl : t = c ∨ t = d ∨ t = e := by simpa [hrest] using ht
    all_goals omega

/-- Only a byte below `0x80` reads as a code point below `0x80`. -/
theorem le_code_ofLead {b : UInt8} (hb : 0x80 ≤ b.toNat) (rest : Bytes) :
    0x80 ≤ (ofLead b rest).code := by
  have h := reads_ofLead b rest
  generalize ofLead b rest = c at h ⊢
  cases h with
  | ascii => omega
  | malformed => simp [Scalar.malformed, Scalar.replacement]
  | two | three | four => simp only; omega

theorem toUInt8_eq {n : Nat} {b : UInt8} (h : n = b.toNat) : n.toUInt8 = b := by
  subst h
  simp

/-- Writing a character again gives the bytes it was read from, unless these are malformed. -/
theorem encode_ofLead_of_wellFormed {b : UInt8} {rest : Bytes}
    (hformed : (ofLead b rest).isMalformed = false) :
    encode (ofLead b rest).code = b :: rest.take ((ofLead b rest).width - 1) := by
  have h := reads_ofLead b rest
  generalize ofLead b rest = x at h hformed ⊢
  cases h with
  | ascii hb => simp [encode, hb]
  | malformed => simp [Scalar.isMalformed, Scalar.malformed] at hformed
  | @two c more hrest hb hb' hc hc' =>
    have hdiv : 0xC0 + ((b.toNat - 0xC0) * 64 + (c.toNat - 0x80)) / 64 = b.toNat := by omega
    have hmod : 0x80 + ((b.toNat - 0xC0) * 64 + (c.toNat - 0x80)) % 64 = c.toNat := by omega
    simp only [hrest]
    rw [encode, if_neg (by omega), if_pos (by omega), toUInt8_eq hdiv, toUInt8_eq hmod]
    rfl
  | @three c d more hrest hb hb' hE0 hED hc hc' hd hd' =>
    simp only [hrest]
    generalize hn : (b.toNat - 0xE0) * 4096 + (c.toNat - 0x80) * 64 + (d.toNat - 0x80) = n
    have hfirst : 0xE0 + n / 4096 = b.toNat := by omega
    have hsecond : 0x80 + n / 64 % 64 = c.toNat := by omega
    have hthird : 0x80 + n % 64 = d.toNat := by omega
    have hsurrogate : ¬ ((decide (0xD800 ≤ n) && decide (n ≤ 0xDFFF)) || decide (0x10FFFF < n)) = true := by
      simp only [Bool.or_eq_true, Bool.and_eq_true, decide_eq_true_eq]
      omega
    rw [encode, if_neg (by omega), if_neg (by omega), if_neg hsurrogate, if_pos (by omega),
      toUInt8_eq hfirst, toUInt8_eq hsecond, toUInt8_eq hthird]
    rfl
  | @four c d e more hrest hb hb' hF0 hF4 hc hc' hd hd' he he' =>
    simp only [hrest]
    generalize hn : (b.toNat - 0xF0) * 262144 + (c.toNat - 0x80) * 4096 + (d.toNat - 0x80) * 64
      + (e.toNat - 0x80) = n
    have hfirst : 0xF0 + n / 262144 = b.toNat := by omega
    have hsecond : 0x80 + n / 4096 % 64 = c.toNat := by omega
    have hthird : 0x80 + n / 64 % 64 = d.toNat := by omega
    have hfourth : 0x80 + n % 64 = e.toNat := by omega
    have hsurrogate : ¬ ((decide (0xD800 ≤ n) && decide (n ≤ 0xDFFF)) || decide (0x10FFFF < n)) = true := by
      simp only [Bool.or_eq_true, Bool.and_eq_true, decide_eq_true_eq]
      omega
    rw [encode, if_neg (by omega), if_neg (by omega), if_neg hsurrogate, if_neg (by omega),
      toUInt8_eq hfirst, toUInt8_eq hsecond, toUInt8_eq hthird, toUInt8_eq hfourth]
    rfl

/-- A character that does not read as the replacement character is not malformed. -/
theorem encode_ofLead {b : UInt8} {rest : Bytes}
    (hcode : (ofLead b rest).code ≠ Scalar.replacement) :
    encode (ofLead b rest).code = b :: rest.take ((ofLead b rest).width - 1) :=
  encode_ofLead_of_wellFormed (by simp [Scalar.isMalformed, hcode])

/-- The first byte of a text is no tail byte. -/
def Starts (s : Bytes) : Prop :=
  ∀ b ∈ s.head?, isTail b = false

theorem starts_nil : Starts [] := by
  simp [Starts]

/-- A text that starts with an ASCII byte may be cut off there. -/
theorem starts_cons_of_lt {b : UInt8} (h : b < 0x80) (rest : Bytes) : Starts (b :: rest) := by
  intro c hc
  obtain rfl : b = c := by simpa using hc
  have hb : ¬ (0x80 : UInt8) ≤ b := UInt8.not_le.2 h
  simp [isTail, hb]

/-- A byte that is no tail byte lies in none of the ranges that a second byte may lie in. -/
theorem not_between_of_not_tail {low high c : UInt8} (hlow : 0x80 ≤ low) (hhigh : high ≤ 0xBF)
    (hc : isTail c = false) : (decide (low ≤ c) && decide (c ≤ high)) = false := by
  rw [isTail, Bool.and_eq_false_iff] at hc
  rw [Bool.and_eq_false_iff]
  rcases hc with hc | hc
  · left
    simp only [decide_eq_false_iff_not] at hc ⊢
    exact fun h ↦ hc (UInt8.le_trans hlow h)
  · right
    simp only [decide_eq_false_iff_not] at hc ⊢
    exact fun h ↦ hc (UInt8.le_trans h hhigh)

/-- What is behind a cut does not change a sequence of two. -/
theorem two_append {b : UInt8} {rest more : Bytes} (h : Starts more) :
    two b (rest ++ more) = two b rest := by
  match rest, more with
  | _ :: _, _ => rfl
  | [], [] => rfl
  | [], c :: _ => simp [two, h c (by simp)]

/-- What is behind a cut does not change a sequence of three. -/
theorem three_append {b low high : UInt8} {rest more : Bytes} (hlow : 0x80 ≤ low)
    (hhigh : high ≤ 0xBF) (h : Starts more) :
    three b low high (rest ++ more) = three b low high rest := by
  match rest, more with
  | _ :: _ :: _, _ => rfl
  | [_], [] => rfl
  | [_], d :: _ => simp [three, h d (by simp)]
  | [], [] => rfl
  | [], [_] => rfl
  | [], c :: _ :: _ =>
    simp [three, not_between_of_not_tail hlow hhigh (h c (by simp))]

/-- What is behind a cut does not change a sequence of four. -/
theorem four_append {b low high : UInt8} {rest more : Bytes} (hlow : 0x80 ≤ low)
    (hhigh : high ≤ 0xBF) (h : Starts more) :
    four b low high (rest ++ more) = four b low high rest := by
  match rest, more with
  | _ :: _ :: _ :: _, _ => rfl
  | [_, _], [] => rfl
  | [_, _], e :: _ => simp [four, h e (by simp)]
  | [_], [] => rfl
  | [_], [_] => rfl
  | [_], d :: _ :: _ => simp [four, h d (by simp)]
  | [], [] => rfl
  | [], [_] => rfl
  | [], [_, _] => rfl
  | [], c :: _ :: _ :: _ =>
    simp [four, not_between_of_not_tail hlow hhigh (h c (by simp))]

/-- What follows a text does not change its first character, unless it starts with a tail
byte. -/
theorem ofLead_append {b : UInt8} {rest more : Bytes} (h : Starts more) :
    ofLead b (rest ++ more) = ofLead b rest := by
  unfold ofLead
  rw [two_append h, three_append (by decide) (by decide) h, three_append (by decide) (by decide) h,
    three_append (by decide) (by decide) h, four_append (by decide) (by decide) h,
    four_append (by decide) (by decide) h, four_append (by decide) (by decide) h]

/-! ### Cutting a text into characters -/

/-- The pieces of a text that belong to the given characters. -/
def pieces : List Scalar → Bytes → List Glyph
  | [], _ => []
  | c :: cs, s => ⟨c.code, s.take c.width⟩ :: pieces cs (s.drop c.width)

/-- The characters of a text, with their bytes. -/
def glyphs (s : Bytes) : List Glyph :=
  pieces (scalars s) s

theorem scalars_cons (b : UInt8) (rest : Bytes) :
    scalars (b :: rest)
      = ofLead b rest :: scalars (rest.drop ((ofLead b rest).width - 1)) := by
  rw [scalars, scalarsAfter, scalarsAfter_eq]

@[simp] theorem glyphs_nil : glyphs [] = [] := rfl

/-- A text has its first glyph with its bytes, and behind it the glyphs of the rest. -/
theorem glyphs_cons (b : UInt8) (rest : Bytes) :
    glyphs (b :: rest)
      = ⟨(ofLead b rest).code, b :: rest.take ((ofLead b rest).width - 1)⟩
        :: glyphs (rest.drop ((ofLead b rest).width - 1)) := by
  obtain ⟨n, hn⟩ := Nat.exists_eq_add_of_le' (one_le_width_ofLead b rest)
  rw [glyphs, scalars_cons, pieces, glyphs, hn]
  simp

theorem glyphs_cons_of_lt {b : UInt8} (h : b < 0x80) (rest : Bytes) :
    glyphs (b :: rest) = ⟨b.toNat, [b]⟩ :: glyphs rest := by
  rw [glyphs_cons, ofLead_of_lt h]
  simp

/-- Induction along the characters of a text. -/
theorem glyph_induction {motive : Bytes → Prop} (nil : motive [])
    (cons : ∀ b rest, motive (rest.drop ((ofLead b rest).width - 1)) → motive (b :: rest)) :
    ∀ s, motive s := by
  intro s
  induction hn : s.length using Nat.strongRecOn generalizing s with
  | ind n ih =>
    match s, hn with
    | [], _ => exact nil
    | b :: rest, hn =>
      refine cons b rest (ih _ ?_ _ rfl)
      simp only [List.length_cons] at hn
      rw [List.length_drop]
      omega

/-- Without their bytes, the glyphs of a text are its characters. -/
theorem map_scalar_glyphs (s : Bytes) : (glyphs s).map Glyph.scalar = scalars s := by
  induction s using glyph_induction with
  | nil => rfl
  | cons b rest ih =>
    have hle := width_ofLead_le b rest
    have hpos := one_le_width_ofLead b rest
    rw [glyphs_cons, scalars_cons, List.map_cons, ih]
    congr 1
    simp only [Glyph.scalar, List.length_cons, List.length_take]
    rw [Nat.min_eq_left (by omega), Nat.sub_add_cancel hpos]

/-- The glyphs of a text hold all its bytes in order. -/
theorem flatMap_bytes_glyphs (s : Bytes) : (glyphs s).flatMap Glyph.bytes = s := by
  induction s using glyph_induction with
  | nil => rfl
  | cons b rest ih => rw [glyphs_cons, List.flatMap_cons, ih, List.cons_append, List.take_append_drop]

/-- Every glyph of a text has a byte. -/
theorem width_pos_of_mem_glyphs {g : Glyph} {s : Bytes} (h : g ∈ glyphs s) : 0 < g.width := by
  induction s using glyph_induction with
  | nil => simp at h
  | cons b rest ih =>
    rw [glyphs_cons, List.mem_cons] at h
    rcases h with rfl | h
    · simp [Glyph.width]
    · exact ih h

/-- The first byte of a character and the tail bytes behind it. -/
theorem exists_bytes_of_mem_glyphs {g : Glyph} {s : Bytes} (h : g ∈ glyphs s) :
    ∃ b tails, g.bytes = b :: tails ∧ (∀ c ∈ tails, isTail c = true) ∧
      ∃ rest, g.code = (ofLead b (tails ++ rest)).code ∧
        (ofLead b (tails ++ rest)).width = tails.length + 1 := by
  induction s using glyph_induction with
  | nil => simp at h
  | cons b rest ih =>
    rw [glyphs_cons, List.mem_cons] at h
    rcases h with rfl | h
    · have hle := width_ofLead_le b rest
      have hpos := one_le_width_ofLead b rest
      refine ⟨b, _, rfl, fun c hc ↦ isTail_of_mem_ofLead hc,
        rest.drop ((ofLead b rest).width - 1), ?_, ?_⟩
      · rw [List.take_append_drop]
      · rw [List.take_append_drop, List.length_take]
        omega
    · exact ih h

/-- A character below `0x80` is written with that one byte. -/
theorem bytes_of_code_lt {g : Glyph} {s : Bytes} (h : g ∈ glyphs s) (hcode : g.code < 0x80) :
    g.bytes = [g.code.toUInt8] := by
  obtain ⟨b, tails, hbytes, -, rest, hread, hwidth⟩ := exists_bytes_of_mem_glyphs h
  have hb : b.toNat < 0x80 := by
    by_contra hb
    have := le_code_ofLead (Nat.le_of_not_lt hb) (tails ++ rest)
    omega
  rw [ofLead_of_lt hb] at hread hwidth
  have htails : tails = [] := List.eq_nil_of_length_eq_zero (by simpa using hwidth.symm)
  rw [hbytes, htails, hread]
  simp

/-- A byte below `0x80` occurs in no character but the one it stands for. -/
theorem notMem_bytes {g : Glyph} {s : Bytes} (h : g ∈ glyphs s) {n : UInt8} (hn : n < 0x80)
    (hne : g.code ≠ n.toNat) : n ∉ g.bytes := by
  obtain ⟨b, tails, hbytes, htails, rest, hread, -⟩ := exists_bytes_of_mem_glyphs h
  rw [hbytes, List.mem_cons, not_or]
  constructor
  · rintro rfl
    rw [ofLead_of_lt hn] at hread
    exact hne hread
  · intro hmem
    have htail := isTail_iff.1 (htails n hmem)
    have hlt := UInt8.lt_iff_toNat_lt.1 hn
    simp at hlt
    omega

/-- What is left of a text behind some of its characters is cut as before. -/
theorem glyphs_flatMap_of_append {s : Bytes} {as bs : List Glyph} (h : glyphs s = as ++ bs) :
    glyphs (bs.flatMap Glyph.bytes) = bs := by
  induction s using glyph_induction generalizing as with
  | nil =>
    obtain ⟨-, rfl⟩ := List.append_eq_nil_iff.1 (glyphs_nil ▸ h).symm
    rfl
  | cons b rest ih =>
    cases as with
    | nil =>
      rw [List.nil_append] at h
      rw [← h, flatMap_bytes_glyphs]
    | cons a as =>
      rw [glyphs_cons, List.cons_append, List.cons.injEq] at h
      exact ih h.2

/-- How the first of some characters is written, if they are what their text is cut into. -/
theorem exists_bytes_of_cut {g : Glyph} {gs : List Glyph}
    (h : glyphs ((g :: gs).flatMap Glyph.bytes) = g :: gs) :
    ∃ b tails, g.bytes = b :: tails ∧ (∀ t ∈ tails, isTail t = true) ∧
      ofLead b (tails ++ gs.flatMap Glyph.bytes) = ⟨g.code, tails.length + 1⟩ ∧
      glyphs (gs.flatMap Glyph.bytes) = gs := by
  have hrest := @glyphs_flatMap_of_append _ [g] _ h
  cases hs : (g :: gs).flatMap Glyph.bytes with
  | nil => simp [hs] at h
  | cons b rest =>
    rw [hs, glyphs_cons, List.cons.injEq] at h
    obtain ⟨rfl, -⟩ := h
    have hle := width_ofLead_le b rest
    have hpos := one_le_width_ofLead b rest
    have happend : rest.take ((ofLead b rest).width - 1) ++ gs.flatMap Glyph.bytes = rest := by
      simpa [List.flatMap_cons] using hs
    refine ⟨b, _, rfl, fun t ht ↦ isTail_of_mem_ofLead ht, ?_, hrest⟩
    rw [happend, List.length_take, Nat.min_eq_left (by omega), Nat.sub_add_cancel hpos]

/-- The first of some characters is written as it would be encoded. -/
theorem encode_of_cut {g : Glyph} {gs : List Glyph}
    (h : glyphs ((g :: gs).flatMap Glyph.bytes) = g :: gs) (hcode : g.code ≠ Scalar.replacement) :
    encode g.code = g.bytes := by
  obtain ⟨b, tails, hbytes, -, hread, -⟩ := exists_bytes_of_cut h
  have hencode := @encode_ofLead b (tails ++ gs.flatMap Glyph.bytes)
    (by rw [hread]; exact hcode)
  rw [hread] at hencode
  simpa [hbytes] using hencode

/-- **Cutting.** Two pieces read as they did together if the second starts with no tail byte. -/
theorem glyphs_append {s t : Bytes} (h : Starts t) : glyphs (s ++ t) = glyphs s ++ glyphs t := by
  induction s using glyph_induction with
  | nil => rfl
  | cons b rest ih =>
    have hle := width_ofLead_le b rest
    rw [List.cons_append, glyphs_cons, glyphs_cons, ofLead_append h, List.cons_append, ← ih,
      List.take_append_of_le_length (by omega), List.drop_append_of_le_length (by omega)]

theorem scalars_append {s t : Bytes} (h : Starts t) :
    scalars (s ++ t) = scalars s ++ scalars t := by
  rw [← map_scalar_glyphs, glyphs_append h, List.map_append, map_scalar_glyphs, map_scalar_glyphs]

end Utf8

end ColonGap
