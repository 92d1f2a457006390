import ColonGap.Proofs.Pace
import ColonGap.Proofs.Passage
import ColonGap.Script.Lexer.Trivia

/-!
# What separates tokens, on both sides

Two facts about the trivia between tokens. Readers side by side leave it at the same place
(`measure_pieces`). And what the lexer passes there is a passage in the sense of the search for a
colon (`passes_of_measure`), if one counts the next-line control as blank, as the lexer does.

The second fact compares an automaton on characters with a search on bytes. They agree because a
byte that starts a line break, a star and a slash never occur inside a character
(`startsLineBreak_ofLead`).
-/

namespace ColonGap

/-- A character that separates tokens. -/
def isSeparator (c : Nat) : Bool :=
  isBlank c || c == 0x85

namespace Gap

/-! ### Bytes and characters -/

/-- A line break starts with a line feed, a carriage return, or one of the two separators of
Unicode. -/
theorem startsLineBreak_iff {b : UInt8} {rest : Bytes} :
    startsLineBreak (b :: rest) = true ↔ b = 10 ∨ b = 13 ∨
      ∃ d more, b = 0xE2 ∧ rest = 0x80 :: d :: more ∧ (d = 0xA8 ∨ d = 0xA9) := by
  constructor
  · intro h
    unfold startsLineBreak at h
    split at h
    case h_1 heq => exact .inl (List.cons.inj heq).1
    case h_2 heq => exact .inr (.inl (List.cons.inj heq).1)
    case h_3 d more heq =>
      obtain ⟨hb, hrest⟩ := List.cons.inj heq
      exact .inr (.inr ⟨d, more, hb, hrest, by simpa using h⟩)
    case h_4 => simp at h
  · rintro (rfl | rfl | ⟨d, more, rfl, rfl, rfl | rfl⟩) <;> rfl

/-- A tail byte starts no line break. -/
theorem startsLineBreak_of_isTail {b : UInt8} (h : Utf8.isTail b = true) (rest : Bytes) :
    startsLineBreak (b :: rest) = false := by
  have hb := Utf8.isTail_iff.1 h
  rw [Bool.eq_false_iff, Ne, startsLineBreak_iff]
  rintro (rfl | rfl | ⟨d, more, rfl, -⟩) <;> simp at hb

/-- A line break is recognised by its bytes. -/
theorem startsLineBreak_ofLead (b : UInt8) (rest : Bytes) :
    startsLineBreak (b :: rest) = isLineBreak (Utf8.ofLead b rest).code := by
  have hreads := Utf8.reads_ofLead b rest
  rw [Bool.eq_iff_iff, startsLineBreak_iff]
  constructor
  · rintro (rfl | rfl | ⟨d, more, rfl, rfl, rfl | rfl⟩)
    all_goals rfl
  · generalize Utf8.ofLead b rest = c at hreads
    simp only [isLineBreak, Bool.or_eq_true, beq_iff_eq, ← UInt8.toNat_inj, UInt8.reduceToNat]
    intro h
    cases hreads with
    | ascii =>
      simp only at h
      omega
    | malformed => simp [Scalar.malformed, Scalar.replacement] at h
    | two | four =>
      simp only at h
      omega
    | @three c d more hrest =>
      simp only at h
      refine .inr (.inr ⟨d, more, by omega, ?_, by omega⟩)
      rw [hrest, UInt8.toNat_inj.1 (show c.toNat = (0x80 : UInt8).toNat by simp; omega)]
/-- A line break is looked for behind tail bytes. -/
theorem lineBreak?_tails {tails : Bytes} (h : ∀ t ∈ tails, Utf8.isTail t = true) (rest : Bytes) :
    lineBreak? (tails ++ rest) = (lineBreak? rest).map (· + tails.length) := by
  induction tails with
  | nil => simp
  | cons t tails ih =>
    rw [List.cons_append, lineBreak?, startsLineBreak_of_isTail (h t (by simp)),
      ih fun u hu ↦ h u (by simp [hu])]
    simp [Function.comp_def, Nat.add_assoc]

/-- The first line break of a text is where its first character that is one stands. -/
theorem lineBreak?_append {as bs : List Glyph} {c : Glyph}
    (hcut : Utf8.glyphs ((as ++ c :: bs).flatMap Glyph.bytes) = as ++ c :: bs)
    (has : ∀ a ∈ as, isLineBreak a.code = false) (hc : isLineBreak c.code = true) :
    lineBreak? ((as ++ c :: bs).flatMap Glyph.bytes) = some (as.flatMap Glyph.bytes).length := by
  induction as with
  | nil =>
    obtain ⟨b, tails, hbytes, -, hread, -⟩ := Utf8.exists_bytes_of_cut hcut
    have hstarts := startsLineBreak_ofLead b (tails ++ bs.flatMap Glyph.bytes)
    rw [hread, hc] at hstarts
    simp [hbytes, lineBreak?, hstarts]
  | cons a as ih =>
    rw [List.cons_append] at hcut
    obtain ⟨b, tails, hbytes, htails, hread, hrest⟩ := Utf8.exists_bytes_of_cut hcut
    have hstarts := startsLineBreak_ofLead b (tails ++ (as ++ c :: bs).flatMap Glyph.bytes)
    rw [hread, has a (by simp)] at hstarts
    rw [List.cons_append, List.flatMap_cons, hbytes, List.cons_append, lineBreak?, hstarts,
      lineBreak?_tails htails, ih hrest fun a' ha' ↦ has a' (by simp [ha'])]
    simp [hbytes]
    omega

theorem indexOf?_cons_ne {needle rest : Bytes} {b n : UInt8} (h : b ≠ n) :
    Bytes.indexOf? (n :: needle) (b :: rest)
      = (Bytes.indexOf? (n :: needle) rest).map (· + 1) := by
  rw [Bytes.indexOf?, if_neg]
  simp [List.isPrefixOf, h.symm]

/-- A text is looked for behind bytes without its first one. -/
theorem indexOf?_append_of_notMem {needle bytes rest : Bytes} {n : UInt8} (h : n ∉ bytes) :
    Bytes.indexOf? (n :: needle) (bytes ++ rest)
      = (Bytes.indexOf? (n :: needle) rest).map (· + bytes.length) := by
  induction bytes with
  | nil => simp
  | cons b bytes ih =>
    rw [List.mem_cons, not_or] at h
    rw [List.cons_append, indexOf?_cons_ne (Ne.symm h.1), ih h.2]
    simp [Function.comp_def, Nat.add_assoc]

end Gap

namespace Script

open Piece

namespace Trivia

/-! ### Both sides -/

/-- The mode is one that a gap leaves alone. -/
def isSteady : TriviaMode → Bool
  | .between | .line | .block false _ => true
  | .opening | .block true _ => false

/-- The measure, with its count apart. -/
def split (t : Trivia) : Nat × Bool × Bool × Bool :=
  (t.count, t.insertSemicolon, t.implicitSemicolon, t.unterminated)

theorem split_more (t : Trivia) : t.more.split = (t.split.1 + 1, t.split.2) := rfl

/-- Blanks make trivia longer by themselves and change nothing else. -/
theorem measure_blanks {blanks : List Glyph} (hblanks : ∀ g ∈ blanks, g.isFiller = true)
    {mode : TriviaMode} (hmode : isSteady mode = true) (insert implicit : Bool)
    (rest : List Scalar) :
    (measure mode insert implicit (blanks.map Glyph.scalar ++ rest)).split
      = (blanks.length + (measure mode insert implicit rest).split.1,
        (measure mode insert implicit rest).split.2) := by
  induction blanks with
  | nil => simp
  | cons b bs ih =>
    have hb := hblanks b (by simp)
    have hblank := Glyph.isBlank_of_isFiller hb
    have hbreak := Glyph.not_isLineBreak_of_isFiller hb
    have hstar : (b.code == 42) = false := by
      rw [beq_eq_false_iff_ne]
      intro h
      rw [h] at hblank
      exact absurd hblank (by decide)
    have hrest := ih fun g hg ↦ hblanks g (by simp [hg])
    have hstep : (measure mode insert implicit
          ((b :: bs).map Glyph.scalar ++ rest)) =
        (measure mode insert implicit (bs.map Glyph.scalar ++ rest)).more := by
      match mode, hmode with
      | .between, _ | .line, _ => simp [measure, hblank, hbreak]
      | .block false lineBreak, _ => simp [measure, hbreak, hstar]
    rw [hstep, split_more, hrest, List.length_cons]
    simp [Nat.add_right_comm]

/-- Trivia ends at the same place on both sides, and means the same. -/
theorem even_measure {ps : List Piece} (hvalid : Valid ps) {mode : TriviaMode}
    (hmode : startsGap ps = true → isSteady mode = true) (insert implicit : Bool) :
    Even (fun rs ↦ startsGap rs = false) (fun _ ↦ [])
      (fun s ↦ (measure mode insert implicit s).split) ps := by
  induction ps generalizing mode insert implicit with
  | nil =>
    refine .stop (b := (measure mode insert implicit []).split.2) rfl rfl fun i ↦ ?_
    cases mode <;> rfl
  | cons p ps ih =>
    cases p with
    | gap blanks =>
      obtain ⟨hfill, ⟨g, qs, rfl, -⟩, hvalid⟩ := hvalid
      exact (@ih hvalid mode (by simp) insert implicit).gap fun i ↦
        measure_blanks (hfill i) (hmode rfl) insert implicit _
    | same g =>
      obtain ⟨hprev, hvalid⟩ := hvalid
      cases mode with
      | between =>
        by_cases hbreak : isLineBreak g.code
        · refine (@ih hvalid .between (fun _ ↦ rfl) false (implicit || insert)).same ?_
          exact fun i ↦ by simp [measure, hbreak, split_more]
        by_cases hblank : isBlank g.code || g.code == 0x85
        · refine (@ih hvalid .between (fun _ ↦ rfl) insert implicit).same ?_
          exact fun i ↦ by simp [measure, hbreak, hblank, split_more]
        by_cases hslash : g.code = 47
        · -- A slash is followed by no gap, so what follows it is the same on both sides.
          have hgap : startsGap ps = false := by
            by_contra h
            exact (hprev (by simpa using h)).1 hslash
          have hstarts : ∀ c i, startsWith c (scalars i ps) = startsWith c (scalars .old ps) := by
            intro c i
            match ps, hgap with
            | [], _ => rfl
            | same h :: ps, _ => rfl
          rw [Bool.not_eq_true] at hbreak hblank
          by_cases hline : startsWith 47 (scalars .old ps)
          · refine (@ih hvalid .line (fun _ ↦ rfl) insert implicit).same fun i ↦ ?_
            simp [measure, hbreak, hblank, beq_iff_eq.2 hslash, hstarts 47 i, hline, split_more]
          by_cases hblock : startsWith 42 (scalars .old ps)
          · refine (@ih hvalid .opening (by simp [hgap]) insert implicit).same fun i ↦ ?_
            simp [measure, hbreak, hblank, beq_iff_eq.2 hslash, hstarts 47 i, hline,
              hstarts 42 i, hblock, split_more]
          · refine .stop (b := (insert, implicit, false)) rfl rfl fun i ↦ ?_
            simp [measure, hbreak, hblank, hstarts 47 i, hline, hstarts 42 i, hblock, split]
        · refine .stop (b := (insert, implicit, false)) rfl rfl fun i ↦ ?_
          simp [measure, hbreak, hblank, hslash, split]
      | line =>
        by_cases hbreak : isLineBreak g.code
        · refine (@ih hvalid .between (fun _ ↦ rfl) false (implicit || insert)).same ?_
          exact fun i ↦ by simp [measure, hbreak, split_more]
        · refine (@ih hvalid .line (fun _ ↦ rfl) insert implicit).same ?_
          exact fun i ↦ by simp [measure, hbreak, split_more]
      | opening =>
        refine (@ih hvalid (.block false false) (fun _ ↦ rfl) insert implicit).same ?_
        exact fun i ↦ by simp [measure, split_more]
      | block star lineBreak =>
        by_cases hclose : star && g.code == 47
        · refine (@ih hvalid .between (fun _ ↦ rfl) (insert && !lineBreak)
            (implicit || lineBreak)).same fun i ↦ ?_
          simp [measure, hclose, split_more]
        · have hsteady : startsGap ps = true →
              isSteady (.block (g.code == 42) (lineBreak || isLineBreak g.code)) = true := by
            intro h
            have hstar : (g.code == 42) = false := by simpa using (hprev h).2.1
            simp [hstar, isSteady]
          refine (ih hvalid hsteady insert implicit).same fun i ↦ ?_
          simp [measure, hclose, split_more]

/-! ### What is passed -/

/-- A line comment is passed up to its line break, which is passed as well. -/
theorem measure_line {gs : List Glyph} {insert implicit : Bool} :
    (∀ g ∈ gs, isLineBreak g.code = false) ∧
        (measure .line insert implicit (gs.map Glyph.scalar)).count = gs.length ∨
      ∃ as c bs, gs = as ++ c :: bs ∧ (∀ a ∈ as, isLineBreak a.code = false) ∧
        isLineBreak c.code = true ∧
        (measure .line insert implicit (gs.map Glyph.scalar)).split
          = (as.length + 1
              + (measure .between false (implicit || insert) (bs.map Glyph.scalar)).split.1,
            (measure .between false (implicit || insert) (bs.map Glyph.scalar)).split.2) := by
  induction gs with
  | nil => exact .inl ⟨by simp, rfl⟩
  | cons g gs ih =>
    by_cases hbreak : isLineBreak g.code
    · refine .inr ⟨[], g, gs, rfl, by simp, hbreak, ?_⟩
      simp [measure, hbreak, split_more, Nat.add_comm]
    · rw [Bool.not_eq_true] at hbreak
      have hstep : measure .line insert implicit ((g :: gs).map Glyph.scalar)
          = (measure .line insert implicit (gs.map Glyph.scalar)).more := by
        simp [measure, hbreak]
      rcases ih with ⟨hgs, hcount⟩ | ⟨as, c, bs, rfl, has, hc, hmeasure⟩
      · refine .inl ⟨by simpa using ⟨hbreak, hgs⟩, ?_⟩
        rw [hstep, more, hcount, List.length_cons]
      · refine .inr ⟨g :: as, c, bs, rfl, by simpa using ⟨hbreak, has⟩, hc, ?_⟩
        rw [hstep, split_more, hmeasure, List.length_cons]
        simp only [Prod.mk.injEq, and_true]
        omega

/-- A block comment is passed up to the first star that is followed by a slash. A star just passed
belongs to the text that is searched. -/
theorem measure_block {gs : List Glyph} (hcut : Utf8.glyphs (gs.flatMap Glyph.bytes) = gs)
    {star lineBreak insert implicit : Bool}
    (hterm : (measure (.block star lineBreak) insert implicit (gs.map Glyph.scalar)).unterminated
      = false) :
    ∃ as bs insert' implicit' n, gs = as ++ bs ∧
      Bytes.indexOf? [42, 47] ((if star then [42] else []) ++ gs.flatMap Glyph.bytes) = some n ∧
      n + 2 = (if star then 1 else 0) + (as.flatMap Glyph.bytes).length ∧
      (measure (.block star lineBreak) insert implicit (gs.map Glyph.scalar)).split
        = (as.length + (measure .between insert' implicit' (bs.map Glyph.scalar)).split.1,
          (measure .between insert' implicit' (bs.map Glyph.scalar)).split.2) := by
  induction gs generalizing star lineBreak with
  | nil => simp [measure] at hterm
  | cons g gs ih =>
    have hmem : g ∈ Utf8.glyphs ((g :: gs).flatMap Glyph.bytes) := by
      rw [hcut]
      simp
    obtain ⟨b, tails, hbytes, -, -, hrest⟩ := Utf8.exists_bytes_of_cut hcut
    by_cases hclose : star && g.code == 47
    · rw [Bool.and_eq_true, beq_iff_eq] at hclose
      obtain ⟨rfl, hcode⟩ := hclose
      have hg : g.bytes = [47] := by simp [Utf8.bytes_of_code_lt hmem (by omega), hcode]
      refine ⟨[g], gs, insert && !lineBreak, implicit || lineBreak, 0, rfl, ?_, ?_, ?_⟩
      · simp [hg, Bytes.indexOf?, List.isPrefixOf]
      · simp [hg]
      · simp [measure, hcode, split_more, Nat.add_comm]
    · have hstep : measure (.block star lineBreak) insert implicit ((g :: gs).map Glyph.scalar)
          = (measure (.block (g.code == 42) (lineBreak || isLineBreak g.code)) insert implicit
            (gs.map Glyph.scalar)).more := by
        rw [Bool.not_eq_true] at hclose
        simp [measure, hclose]
      rw [hstep] at hterm ⊢
      obtain ⟨as, bs, insert', implicit', n, rfl, hindex, hn, hsplit⟩ := ih hrest hterm
      -- The search goes on behind the character, or at it if it is a star.
      have hsearch : Bytes.indexOf? [42, 47]
            ((if star then [42] else []) ++ (g :: (as ++ bs)).flatMap Glyph.bytes)
          = some (n + (if star then 1 else 0) + g.bytes.length
            - (if g.code == 42 then 1 else 0)) := by
        by_cases hstar : g.code = 42
        · have hg : g.bytes = [42] := by simp [Utf8.bytes_of_code_lt hmem (by omega), hstar]
          simp only [hstar, beq_self_eq_true, if_true] at hindex
          cases star with
          | false => simpa [hg, hstar] using hindex
          | true =>
            simp only [if_true, List.flatMap_cons, hg, List.singleton_append] at hindex ⊢
            rw [Bytes.indexOf?, if_neg (by simp [List.isPrefixOf]), hindex]
            simp [hstar]
        · have hne : (g.code == 42) = false := by simpa using hstar
          simp only [hne, Bool.false_eq_true, if_false, List.nil_append] at hindex
          have hfree := Utf8.notMem_bytes hmem (n := 42) (by decide) (by simpa using hstar)
          have hbehind := @Gap.indexOf?_append_of_notMem [47] _
            ((as ++ bs).flatMap Glyph.bytes) _ hfree
          rw [hindex] at hbehind
          rw [List.flatMap_cons]
          cases star with
          | false => simpa [hne] using hbehind
          | true =>
            have hslash : 47 ∉ g.bytes :=
              Utf8.notMem_bytes hmem (by decide) (by simpa using hclose)
            have hb : b ≠ 47 := by
              rintro rfl
              simp [hbytes] at hslash
            simp only [if_true, List.singleton_append]
            rw [Bytes.indexOf?, if_neg (by simp [hbytes, List.isPrefixOf, hb.symm]), hbehind]
            simp [hne, Nat.add_right_comm]
      refine ⟨g :: as, bs, insert', implicit', _, rfl, hsearch, ?_, ?_⟩
      · have hpos : 1 ≤ g.bytes.length := by simp [hbytes]
        have hle : (if g.code == 42 then 1 else 0) ≤ 1 := by split <;> omega
        rw [List.flatMap_cons, List.length_append]
        generalize (if g.code == 42 then 1 else 0) = k at hn hle ⊢
        omega
      · rw [split_more, hsplit, List.length_cons]
        simp only [Prod.mk.injEq, and_true]
        omega

/-- Two slashes start a line comment. -/
theorem measure_between_line {g h : Glyph} (hg : g.code = 47) (hh : h.code = 47)
    (insert implicit : Bool) (rest : List Scalar) :
    measure .between insert implicit (g.scalar :: h.scalar :: rest)
      = (measure .line insert implicit (h.scalar :: rest)).more := by
  rw [measure]
  simp only [Glyph.scalar_code, hg, show isLineBreak 47 = false by decide,
    show isBlank 47 = false by decide]
  simp [startsWith, hh]

/-- A slash and a star start a block comment. -/
theorem measure_between_block {g h : Glyph} (hg : g.code = 47) (hh : h.code = 42)
    (insert implicit : Bool) (rest : List Scalar) :
    measure .between insert implicit (g.scalar :: h.scalar :: rest)
      = (measure (.block false false) insert implicit rest).more.more := by
  rw [measure]
  simp only [Glyph.scalar_code, hg, show isLineBreak 47 = false by decide,
    show isBlank 47 = false by decide]
  simp [startsWith, hh, measure]

/-- A separator character separates. -/
theorem separates_glyph {s : Bytes} {g : Glyph} {gs : List Glyph}
    (hs : s = (g :: gs).flatMap Glyph.bytes)
    (hcut : Utf8.glyphs ((g :: gs).flatMap Glyph.bytes) = g :: gs)
    (hg : isSeparator g.code = true) : Gap.Separates isSeparator s g.bytes.length := by
  obtain ⟨b, tails, hbytes, -, hread, -⟩ := Utf8.exists_bytes_of_cut hcut
  have hblank := @Gap.Separates.blank isSeparator b
    (tails ++ gs.flatMap Glyph.bytes) (by rw [hread]; exact hg)
  rw [hread] at hblank
  rw [hs, List.flatMap_cons, hbytes]
  exact hblank

/-- A character below `0x80` is a single byte. -/
theorem bytes_of_cut {gs : List Glyph} (hcut : Utf8.glyphs (gs.flatMap Glyph.bytes) = gs)
    {g : Glyph} (hg : g ∈ gs) (hcode : g.code < 0x80) : g.bytes = [g.code.toUInt8] := by
  rw [← hcut] at hg
  exact Utf8.bytes_of_code_lt hg hcode

/-- A line comment, up to its line break or the end of the source. -/
theorem exists_chunk_line {source : Bytes} {start : Nat} {g h : Glyph} {gs : List Glyph}
    (hdrop : source.drop start = (g :: h :: gs).flatMap Glyph.bytes)
    (hcut : Utf8.glyphs ((g :: h :: gs).flatMap Glyph.bytes) = g :: h :: gs)
    (insert implicit : Bool) (hg : g.code = 47) (hh : h.code = 47) :
    (measure .between insert implicit ((g :: h :: gs).map Glyph.scalar)).split.1
        = (g :: h :: gs).length ∨
      ∃ cs ds insert' implicit', g :: h :: gs = cs ++ ds ∧ cs ≠ [] ∧
        Gap.Passes isSeparator source start start (start + (cs.flatMap Glyph.bytes).length) ∧
        (measure .between insert implicit ((g :: h :: gs).map Glyph.scalar)).split
          = (cs.length + (measure .between insert' implicit' (ds.map Glyph.scalar)).split.1,
            (measure .between insert' implicit' (ds.map Glyph.scalar)).split.2) := by
  have hstep : measure .between insert implicit ((g :: h :: gs).map Glyph.scalar)
      = (measure .line insert implicit ((h :: gs).map Glyph.scalar)).more :=
    measure_between_line hg hh insert implicit _
  rcases @measure_line (h :: gs) insert implicit with
    ⟨-, hall⟩ | ⟨cs, c, ds, hcs, hfree, hc, hmeasure⟩
  · left
    rw [hstep, split_more]
    simpa [split] using hall
  · right
    have hgh : g :: h :: gs = (g :: cs) ++ c :: ds := by rw [hcs]; rfl
    have hgfree : ∀ a ∈ g :: cs, isLineBreak a.code = false := by
      simpa [hg] using ⟨by decide, hfree⟩
    have hfound := Gap.lineBreak?_append (hgh ▸ hcut) hgfree hc
    have hsep : Gap.Separates isSeparator (source.drop start)
        ((g :: cs).flatMap Glyph.bytes).length := by
      rw [hdrop]
      rw [← hgh] at hfound
      rw [List.flatMap_cons, List.flatMap_cons, bytes_of_cut hcut (by simp) (by omega),
        bytes_of_cut hcut (g := h) (by simp) (by omega), hg, hh] at hfound ⊢
      exact .line hfound
    have hbehind : source.drop (start + ((g :: cs).flatMap Glyph.bytes).length)
        = (c :: ds).flatMap Glyph.bytes := by
      rw [← List.drop_drop, hdrop, hgh, List.flatMap_append, List.drop_left]
    have hbreak := separates_glyph hbehind
      (Utf8.glyphs_flatMap_of_append (hcut.trans hgh))
      (by simp [isSeparator, isBlank_of_isLineBreak hc])
    refine ⟨(g :: cs) ++ [c], ds, false, implicit || insert, by simp [hgh], by simp, ?_, ?_⟩
    · have hpasses := (Gap.Passes.refl.separator hsep).separator hbreak
      simpa [Nat.add_assoc] using hpasses
    · rw [hstep, split_more, hmeasure]
      simp only [List.length_append, List.length_cons, List.length_nil, Prod.mk.injEq, and_true]
      omega

/-- A block comment that is closed. -/
theorem exists_chunk_block {source : Bytes} {start : Nat} {g h : Glyph} {gs : List Glyph}
    (hdrop : source.drop start = (g :: h :: gs).flatMap Glyph.bytes)
    (hcut : Utf8.glyphs ((g :: h :: gs).flatMap Glyph.bytes) = g :: h :: gs)
    (insert implicit : Bool) (hg : g.code = 47) (hh : h.code = 42)
    (hterm : (measure .between insert implicit ((g :: h :: gs).map Glyph.scalar)).split.2.2.2
      = false) :
    ∃ cs ds insert' implicit', g :: h :: gs = cs ++ ds ∧ cs ≠ [] ∧
      Gap.Passes isSeparator source start start (start + (cs.flatMap Glyph.bytes).length) ∧
      (measure .between insert implicit ((g :: h :: gs).map Glyph.scalar)).split
        = (cs.length + (measure .between insert' implicit' (ds.map Glyph.scalar)).split.1,
          (measure .between insert' implicit' (ds.map Glyph.scalar)).split.2) := by
  have hstep : measure .between insert implicit ((g :: h :: gs).map Glyph.scalar)
      = (measure (.block false false) insert implicit (gs.map Glyph.scalar)).more.more :=
    measure_between_block hg hh insert implicit _
  rw [hstep, split_more, split_more] at hterm
  obtain ⟨cs, ds, insert', implicit', n, hcs, hindex, hn, hmeasure⟩ :=
    measure_block (@Utf8.glyphs_flatMap_of_append _ [g, h] _ hcut) hterm
  simp only [Bool.false_eq_true, if_false, List.nil_append, Nat.zero_add] at hindex hn
  have hbytes : ([g, h]).flatMap Glyph.bytes = [47, 42] := by
    simp [bytes_of_cut hcut (g := g) (by simp) (by omega),
      bytes_of_cut hcut (g := h) (by simp) (by omega), hg, hh]
  refine ⟨[g, h] ++ cs, ds, insert', implicit', by rw [hcs]; rfl, by simp, ?_, ?_⟩
  · have hsep : Gap.Separates isSeparator (source.drop start) (n + 4) := by
      rw [hdrop, show g :: h :: gs = [g, h] ++ gs from rfl, List.flatMap_append, hbytes]
      exact .block hindex
    rw [List.flatMap_append, List.length_append, hbytes]
    have hpasses := Gap.Passes.refl.separator hsep
    rwa [show n + 4 = 2 + (cs.flatMap Glyph.bytes).length by omega] at hpasses
  · rw [hstep, split_more, split_more, hmeasure]
    simp only [List.length_append, List.length_cons, List.length_nil, Prod.mk.injEq, and_true]
    omega

/-- How a run of trivia starts: with a blank or a comment, after which it goes on as before, or
with a line comment that reaches the end of the source, or not at all. -/
theorem exists_chunk {source : Bytes} {start : Nat} {gs : List Glyph}
    (hdrop : source.drop start = gs.flatMap Glyph.bytes)
    (hcut : Utf8.glyphs (gs.flatMap Glyph.bytes) = gs) (insert implicit : Bool)
    (hterm : (measure .between insert implicit (gs.map Glyph.scalar)).split.2.2.2 = false) :
    (measure .between insert implicit (gs.map Glyph.scalar)).split.1 = 0 ∨
      (measure .between insert implicit (gs.map Glyph.scalar)).split.1 = gs.length ∨
      ∃ cs ds insert' implicit', gs = cs ++ ds ∧ cs ≠ [] ∧
        Gap.Passes isSeparator source start start (start + (cs.flatMap Glyph.bytes).length) ∧
        (measure .between insert implicit (gs.map Glyph.scalar)).split
          = (cs.length + (measure .between insert' implicit' (ds.map Glyph.scalar)).split.1,
            (measure .between insert' implicit' (ds.map Glyph.scalar)).split.2) := by
  cases gs with
  | nil => exact .inl rfl
  | cons g gs =>
    have hone : isSeparator g.code = true →
        Gap.Passes isSeparator source start start (start + ([g].flatMap Glyph.bytes).length) := by
      intro hsep
      simpa using Gap.Passes.refl.separator (separates_glyph hdrop hcut hsep)
    by_cases hbreak : isLineBreak g.code
    · refine .inr (.inr ⟨[g], gs, false, implicit || insert, rfl, by simp, hone ?_, ?_⟩)
      · simp [isSeparator, isBlank_of_isLineBreak hbreak]
      · simp [measure, hbreak, split_more, Nat.add_comm]
    by_cases hblank : isBlank g.code || g.code == 0x85
    · refine .inr (.inr ⟨[g], gs, insert, implicit, rfl, by simp, hone hblank, ?_⟩)
      simp [measure, hbreak, hblank, split_more, Nat.add_comm]
    rw [Bool.not_eq_true] at hbreak hblank
    -- What is left are the two kinds of comments, and no trivia at all.
    cases gs with
    | nil =>
      left
      simp [measure, hbreak, hblank, startsWith, split]
    | cons h gs =>
      by_cases hline : g.code = 47 ∧ h.code = 47
      · right
        exact exists_chunk_line hdrop hcut insert implicit hline.1 hline.2
      by_cases hblock : g.code = 47 ∧ h.code = 42
      · right
        right
        exact exists_chunk_block hdrop hcut insert implicit hblock.1 hblock.2 hterm
      left
      have h1 : (g.code == 47 && h.code == 47) = false := by simpa using hline
      have h2 : (g.code == 47 && h.code == 42) = false := by simpa using hblock
      simp [measure, hbreak, hblank, startsWith, h1, h2, split]

/-- **What the lexer passes between two tokens** is a passage without a closing bracket, unless it
reaches the end of the source. -/
theorem passes_of_measure {source : Bytes} {start : Nat} {gs : List Glyph}
    (hdrop : source.drop start = gs.flatMap Glyph.bytes)
    (hcut : Utf8.glyphs (gs.flatMap Glyph.bytes) = gs) {insert implicit : Bool} {as bs : List Glyph}
    (hgs : gs = as ++ bs) (hbs : bs ≠ [])
    (hcount : (measure .between insert implicit (gs.map Glyph.scalar)).split.1 = as.length)
    (hterm : (measure .between insert implicit (gs.map Glyph.scalar)).split.2.2.2 = false) :
    Gap.Passes isSeparator source start start (start + (as.flatMap Glyph.bytes).length) := by
  induction hn : gs.length using Nat.strongRecOn generalizing gs start insert implicit as with
  | ind n ih =>
    rcases exists_chunk hdrop hcut insert implicit hterm with
      hzero | hall | ⟨cs, ds, insert', implicit', hcs, hne, hpasses, hmeasure⟩
    · rw [hzero] at hcount
      rw [List.eq_nil_of_length_eq_zero hcount.symm]
      exact .refl
    · -- Only at the end of the source is there nothing behind the trivia.
      have hlengths := congrArg List.length hgs
      have hpos := List.length_pos_of_ne_nil hbs
      rw [hall] at hcount
      rw [List.length_append] at hlengths
      omega
    · rw [hmeasure] at hcount hterm
      simp only at hcount hterm
      have has : as = cs ++ ds.take (as.length - cs.length) := by
        have htake : as = (cs ++ ds).take as.length := by rw [← hcs, hgs, List.take_left]
        rw [List.take_append, List.take_of_length_le (by omega)] at htake
        exact htake
      have hds : ds = ds.take (as.length - cs.length) ++ bs := by
        rw [hgs, has, List.append_assoc] at hcs
        exact (List.append_cancel_left hcs).symm
      have hlength : ds.length < n := by
        have hpos := List.length_pos_of_ne_nil hne
        rw [← hn, hcs, List.length_append]
        omega
      have hdrop' : source.drop (start + (cs.flatMap Glyph.bytes).length)
          = ds.flatMap Glyph.bytes := by
        rw [← List.drop_drop, hdrop, hcs, List.flatMap_append, List.drop_left]
      have hcut' := Utf8.glyphs_flatMap_of_append (hcut.trans hcs)
      have hlengths := congrArg List.length has
      rw [List.length_append] at hlengths
      have hrest := ih ds.length hlength hdrop' hcut' hds (by omega) hterm rfl
      have htrans := hpasses.trans hrest
      rw [if_pos rfl] at htrans
      rw [has, List.flatMap_append, List.length_append, ← Nat.add_assoc]
      exact htrans

end Trivia

end Script

end ColonGap
