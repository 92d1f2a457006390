import ColonGap.Proofs.Escapes
import ColonGap.Proofs.Numerals
import ColonGap.Proofs.Trivia
import ColonGap.Script.Lexer
import Mathlib.Data.List.Find

/-!
# Tokens are read alike on both sides

`Lexer.scan` reads one token from two lexers that stand at the same place. Both find a token of the
same kind, from one place to another, and both stand at the same place behind it.

## Shape decisions

* **What a token is made of.** `Spelt` lists, for each kind of token, the pieces it covers. All
  tokens but strings are made of characters that both texts have; a string may have a gap inside.
* **Trivia is a passage.** What lies between two tokens is recorded as `Joined`: on either side, it
  is passed as the search for a colon would pass it, with the next-line control as one more blank.
* **The end of a token is not where the lexer stops.** The blanks behind `async` are read with the
  word, so the end of the token and the place of the lexer are kept apart.
-/

namespace ColonGap.Script

open Piece

variable {z : Respacing} {dirty : Bool} {ps qs rs : List Piece}

/-! ### Between tokens -/

/-- Nothing but trivia lies between two places. -/
def Joined (z : Respacing) (ps qs : List Piece) : Prop :=
  ∀ i, Gap.Passes isSeparator (z.source i) (z.offset i ps) (z.offset i ps) (z.offset i qs)

theorem joined_refl (ps : List Piece) : Joined z ps ps :=
  fun _ ↦ .refl

/-- What joins two tokens may be passed in two goes. -/
theorem Joined.trans (h : Joined z ps qs) (h' : Joined z qs rs) : Joined z ps rs := by
  intro i
  have htrans := (h i).trans (h' i)
  rwa [if_pos rfl] at htrans

/-- Separators are passed one by one. -/
theorem joined_of_separators (hps : ps ++ qs <:+ z.pieces)
    (h : ∀ i, ∀ g ∈ glyphs i ps, isSeparator g.code = true) : Joined z (ps ++ qs) qs := by
  intro i
  have hcut := Respacing.glyphs_text hps i
  have hdrop := Respacing.drop_offset hps i
  have hpass : ∀ (gs hs : List Glyph) (start : Nat), (z.source i).drop start
        = (gs ++ hs).flatMap Glyph.bytes → Utf8.glyphs ((gs ++ hs).flatMap Glyph.bytes) = gs ++ hs →
      (∀ g ∈ gs, isSeparator g.code = true) →
      Gap.Passes isSeparator (z.source i) start start
        (start + (gs.flatMap Glyph.bytes).length) := by
    intro gs hs start hdrop hcut hgs
    induction gs generalizing start with
    | nil => exact .refl
    | cons g gs ih =>
      have hone := Gap.Passes.refl.separator (Trivia.separates_glyph hdrop hcut (hgs g (by simp)))
      have hrest := ih (start + g.bytes.length)
        (by rw [← List.drop_drop, hdrop, List.cons_append, List.flatMap_cons, List.drop_left])
        (@Utf8.glyphs_flatMap_of_append _ [g] _ hcut) fun g hg ↦ hgs g (by simp [hg])
      have htrans := hone.trans hrest
      rw [if_pos rfl] at htrans
      rw [List.flatMap_cons, List.length_append, ← Nat.add_assoc]
      exact htrans
  rw [Respacing.offset_append hps i]
  refine hpass (glyphs i ps) (glyphs i qs) _ ?_ ?_ (h i)
  · rw [hdrop, text, Piece.glyphs_append]
  · rw [← Piece.glyphs_append]
    exact hcut

/-- Trivia as it is measured, unless it is broken off or reaches the end. -/
theorem joined_of_measure (hps : ps ++ qs <:+ z.pieces) (hqs : qs ≠ [])
    (hgap : startsGap qs = false) {insert implicit : Bool} {t : Bool × Bool × Bool}
    (hmeasure : ∀ i, (Trivia.measure .between insert implicit (scalars i (ps ++ qs))).split
      = ((glyphs i ps).length, t)) (hterm : t.2.2 = false) : Joined z (ps ++ qs) qs := by
  intro i
  have hcut := Respacing.glyphs_text hps i
  have hne : glyphs i qs ≠ [] := by
    match qs, hqs, hgap with
    | same g :: qs, _, _ => simp
  have hi := hmeasure i
  rw [scalars] at hi
  rw [Respacing.offset_append hps i]
  exact Trivia.passes_of_measure (Respacing.drop_offset hps i) hcut Piece.glyphs_append hne
    (congrArg Prod.fst hi) ((congrArg (fun p ↦ p.2.2.2) hi).trans hterm)

/-- The blanks that do not end the line. -/
def isInner (code : Nat) : Bool :=
  !isLineBreak code && (isBlank code || code == 0x85)

theorem isSeparator_of_isInner {code : Nat} (h : isInner code = true) :
    isSeparator code = true := by
  simp only [isInner, Bool.and_eq_true] at h
  exact h.2

theorem isInner_of_isFiller {g : Glyph} (h : g.isFiller = true) : isInner g.code = true := by
  simp [isInner, Glyph.isBlank_of_isFiller h, Glyph.not_isLineBreak_of_isFiller h]

/-- The blanks on the current line end at the same place on both sides. -/
theorem exists_inner (hvalid : Valid ps) :
    ∃ qs rs, ps = qs ++ rs ∧ startsGap rs = false ∧
      (∀ i, ∀ g ∈ glyphs i qs, isSeparator g.code = true) ∧
      ∀ i, ((scalars i ps).takeWhile fun c ↦ isInner c.code).length = (glyphs i qs).length := by
  induction ps with
  | nil => exact ⟨[], [], rfl, rfl, by simp, by simp⟩
  | cons p ps ih =>
    cases p with
    | gap blanks =>
      obtain ⟨hfill, ⟨g, rest, rfl, hg⟩, hvalid⟩ := hvalid
      obtain ⟨qs, rs, hps, hgap, hsep, hlength⟩ := ih hvalid
      refine ⟨gap blanks :: qs, rs, by rw [hps]; rfl, hgap, fun i c hc ↦ ?_, fun i ↦ ?_⟩
      · rw [glyphs_gap, List.mem_append] at hc
        rcases hc with hc | hc
        · exact isSeparator_of_isInner (isInner_of_isFiller (hfill i c hc))
        · exact hsep i c hc
      · have hall : ∀ c ∈ (blanks i).map Glyph.scalar, isInner c.code = true := by
          intro c hc
          obtain ⟨b, hb, rfl⟩ := List.mem_map.1 hc
          exact isInner_of_isFiller (hfill i b hb)
        rw [scalars_gap, List.takeWhile_append_of_pos hall, List.length_append, hlength]
        simp
    | same g =>
      by_cases hg : isInner g.code
      · obtain ⟨qs, rs, hps, hgap, hsep, hlength⟩ := ih hvalid.2
        refine ⟨same g :: qs, rs, by rw [hps]; rfl, hgap, fun i c hc ↦ ?_, fun i ↦ ?_⟩
        · rw [glyphs_same, List.mem_cons] at hc
          rcases hc with rfl | hc
          · exact isSeparator_of_isInner hg
          · exact hsep i c hc
        · rw [scalars_same, List.takeWhile_cons_of_pos (by simpa using hg), List.length_cons,
            hlength]
          simp
      · exact ⟨[], _, rfl, rfl, by simp, fun i ↦ by simp [hg]⟩

/-! ### The first characters -/

/-- The code points from a place on. -/
def codes (i : Side) (ps : List Piece) : List Nat :=
  (scalars i ps).map (·.code)

/-- The texts start with given code points on both sides or on neither, if none of them is a stop,
or only the first is one and no gap comes first. -/
theorem exists_isPrefixOf (hvalid : Valid ps) {cs : List Nat}
    (hcs : ∀ c ∈ cs.tail, c ∉ stopCodes)
    (hhead : startsGap ps = false ∨ ∀ c ∈ cs.head?, c ∉ stopCodes) :
    (∀ i, cs.isPrefixOf (codes i ps) = false) ∨
      (∀ i, cs.isPrefixOf (codes i ps) = true) ∧
        ∃ (gs : List Glyph) (qs : List Piece), ps = gs.map same ++ qs ∧ gs.map Glyph.code = cs := by
  induction cs generalizing ps with
  | nil => exact .inr ⟨fun i ↦ rfl, [], ps, rfl, rfl⟩
  | cons c cs ih =>
    match ps, hvalid, hhead with
    | [], _, _ => exact .inl fun i ↦ rfl
    | gap blanks :: ps, hvalid, hhead =>
      left
      intro i
      have hc : c ∉ stopCodes := by
        rcases hhead with hgap | hhead
        · simp at hgap
        · exact hhead c rfl
      obtain ⟨g, gs, hgs, hstop⟩ := hvalid.exists_stop rfl i
      rw [Glyph.isStop_eq] at hstop
      have hne : c ≠ g.code := by
        rintro rfl
        exact hc (mem_stopCodes hstop)
      simp [codes, scalars, hgs, List.isPrefixOf, hne]
    | same g :: ps, hvalid, _ =>
      have hstep : ∀ i, (c :: cs).isPrefixOf (codes i (same g :: ps))
          = (c == g.code && cs.isPrefixOf (codes i ps)) := fun i ↦ rfl
      simp only [hstep]
      by_cases hg : c = g.code
      · subst hg
        simp only [beq_self_eq_true, Bool.true_and]
        have htail : ∀ c ∈ cs, c ∉ stopCodes := hcs
        rcases ih hvalid.2 (fun c hc ↦ htail c (List.mem_of_mem_tail hc))
            (.inr fun c hc ↦ htail c (List.mem_of_mem_head? hc)) with
          hno | ⟨hyes, gs, qs, rfl, hgs⟩
        · exact .inl hno
        · exact .inr ⟨hyes, g :: gs, qs, rfl, by simp [hgs]⟩
      · exact .inl fun i ↦ by simp [hg]

/-- A beginning is seen in as many codes as it has. -/
theorem isPrefixOf_take {cs ds : List Nat} {n : Nat} (h : cs.length ≤ n) :
    cs.isPrefixOf (ds.take n) = cs.isPrefixOf ds := by
  rw [Bool.eq_iff_iff, List.isPrefixOf_iff_prefix, List.isPrefixOf_iff_prefix,
    List.prefix_take_iff]
  exact and_iff_left h

theorem take_beq {cs ds : List Nat} {n : Nat} (h : cs.length = n) :
    (ds.take n == cs) = cs.isPrefixOf ds := by
  rw [Bool.eq_iff_iff, beq_iff_eq, List.isPrefixOf_iff_prefix, List.prefix_iff_eq_take, h]
  exact eq_comm

/-! ### Trivia -/

/-- A place behind the start has something in front of it. -/
theorem offset_pos (hps : ps <:+ z.pieces) (hne : ps ≠ z.pieces) (i : Side) :
    z.offset i ps ≠ 0 := by
  obtain ⟨rs, hrs⟩ := hps
  match rs, hrs with
  | [], hrs => exact absurd hrs hne
  | gap blanks :: rs, hrs =>
    have hstart := z.startsGap
    rw [← hrs] at hstart
    simp at hstart
  | same g :: rs, hrs =>
    have hmem : g ∈ Utf8.glyphs (text i z.pieces) := by
      rw [z.cut, ← hrs]
      simp
    have hpos := Utf8.width_pos_of_mem_glyphs hmem
    have hadd := @Respacing.offset_append z ps (same g :: rs) ⟨[], hrs⟩ i
    simp only [text_same, List.length_append] at hadd
    rw [Glyph.width] at hpos
    omega

/-- Whether a `#!` line opens the source. -/
def startsShebang (r : Reader) : Bool :=
  r.offset == 0 && (r.rest.take 2).map (·.code) == [35, 33]

/-- A script starts with a shebang on both sides or on neither, and no other place does. -/
theorem exists_startsShebang {r : Side → Reader} (h : Paces z dirty ps r) :
    ∃ b, (∀ i, startsShebang (r i) = b) ∧ (ps ≠ z.pieces → b = false) := by
  by_cases hps : ps = z.pieces
  · have hshebang : ∀ i, startsShebang (r i) = [35, 33].isPrefixOf (codes i ps) := by
      intro i
      have hzero : z.offset i ps = 0 := by rw [hps, Respacing.offset]; exact Nat.sub_self _
      rw [startsShebang, (h.stands i).offset, (h.stands i).rest, hzero, List.map_take,
        @take_beq [35, 33] _ 2 rfl]
      rfl
    rcases @exists_isPrefixOf _ h.valid [35, 33] (by decide) (.inr (by decide)) with
      hno | ⟨hyes, -⟩
    · exact ⟨false, fun i ↦ by rw [hshebang, hno], fun _ ↦ rfl⟩
    · exact ⟨true, fun i ↦ by rw [hshebang, hyes], fun h ↦ absurd hps h⟩
  · refine ⟨false, fun i ↦ ?_, fun _ ↦ rfl⟩
    have hne := offset_pos h.suffix hps i
    rw [startsShebang, (h.stands i).offset]
    simp [hne]

/-- The trivia in front of a token are measured, and the lexer moves past them. -/
theorem skipTrivia_eq (l : Lexer) :
    l.skipTrivia
      = (let t := Trivia.measure (if startsShebang l.reader then .line else .between)
          l.insertSemicolon false l.reader.rest
        ⟨if t.unterminated then
            (l.reader.advance t.count).note (l.reader.advance t.count).offset .unexpectedEnd
          else l.reader.advance t.count,
          t.insertSemicolon, t.implicitSemicolon⟩) := rfl

/-- **Trivia.** Both lexers come to one place, at which no gap starts. -/
theorem exists_skipTrivia {l : Side → Lexer} (h : Paces z dirty ps fun i ↦ (l i).reader)
    {insert : Bool} (hinsert : ∀ i, (l i).insertSemicolon = insert) :
    ∃ dirty' qs insert' implicit', (dirty = true → dirty' = true) ∧ qs <:+ ps ∧
      startsGap qs = false ∧ (Paces z dirty' qs fun i ↦ (l i).skipTrivia.reader) ∧
      (∀ i, (l i).skipTrivia.insertSemicolon = insert') ∧
      (∀ i, (l i).skipTrivia.implicitSemicolon = implicit') ∧
      (dirty' = false → qs ≠ [] → ps ≠ z.pieces → Joined z ps qs) := by
  obtain ⟨shebang, hshebang, hlater⟩ := exists_startsShebang h
  have hmode : startsGap ps = true →
      Trivia.isSteady (if shebang then .line else .between) = true := by
    intro _
    split <;> rfl
  obtain ⟨qs, rs, t, rfl, -, hgap, hmeasure⟩ :=
    Trivia.even_measure h.valid hmode insert false
  obtain ⟨dirty', hle, hpaces⟩ := h.advance
  have hsplit : ∀ i, Trivia.measure (if shebang then .line else .between) insert false
      (scalars i (qs ++ rs)) = ⟨(glyphs i qs).length, t.1, t.2.1, t.2.2⟩ := by
    intro i
    have hi := hmeasure i
    simp only [Trivia.split, Prod.ext_iff] at hi
    generalize Trivia.measure _ insert false _ = m at hi ⊢
    cases m
    simp_all
  have hskip : ∀ i, (l i).skipTrivia
      = ⟨if t.2.2 then
            ((l i).reader.advance (glyphs i qs).length).note
              ((l i).reader.advance (glyphs i qs).length).offset .unexpectedEnd
          else (l i).reader.advance (glyphs i qs).length, t.1, t.2.1⟩ := by
    intro i
    rw [skipTrivia_eq, hshebang, hinsert, (h.stands i).rest, hsplit i]
  simp only [hskip]
  have hjoined : t.2.2 = false → rs ≠ [] → qs ++ rs ≠ z.pieces → Joined z (qs ++ rs) rs := by
    intro hterm hne hlate
    have hfalse := hlater hlate
    subst hfalse
    exact joined_of_measure h.suffix hne hgap hmeasure hterm
  cases hterm : t.2.2 with
  | true =>
    refine ⟨true, rs, t.1, t.2.1, fun _ ↦ rfl, List.suffix_append _ _, hgap, ?_, fun _ ↦ rfl,
      fun _ ↦ rfl, by simp⟩
    simpa using hpaces.note _ _
  | false =>
    refine ⟨dirty', rs, t.1, t.2.1, hle, List.suffix_append _ _, hgap, by simpa using hpaces,
      fun _ ↦ rfl, fun _ ↦ rfl, fun _ ↦ hjoined hterm⟩

/-! ### What tokens are made of -/

/-- The token is of the given kind, starts at the first place and ends at the second. -/
inductive Spelt (x : Side → Lexeme) : Token → List Piece → List Piece → Prop
  | word {t : Token} {gs : List Glyph} {qs : List Piece} {w : Word} (ht : t.isName = true)
      (hgs : gs ≠ []) (hword : ∀ i, Word.measure 0 true (scalars i (gs.map same ++ qs)) = w)
      (hform : w.wellFormed = true) (hcount : w.count = gs.length)
      (hclass : t = .identifier ∨ t = .escapedWord ∨
        w.escaped = false ∧ Token.ofWord? w.name = some t)
      (hname : ∀ i, (x i).name = w.name) (hraw : ∀ i, (x i).raw = gs.flatMap Glyph.bytes) :
      Spelt x t (gs.map same ++ qs) qs
  | privateName {g : Glyph} {gs : List Glyph} {qs : List Piece} {w : Word} (hg : g.code = 35)
      (hgs : gs ≠ []) (hword : ∀ i, Word.measure 0 true (scalars i (gs.map same ++ qs)) = w)
      (hform : w.wellFormed = true) (hcount : w.count = gs.length)
      (hname : ∀ i, (x i).name = w.name) (hraw : ∀ i, (x i).raw = gs.flatMap Glyph.bytes) :
      Spelt x .privateName (same g :: (gs.map same ++ qs)) qs
  | number {gs : List Glyph} {qs : List Piece} (hgs : gs ≠ [])
      (hlast : ∀ g ∈ gs, mayPrecede g.code = true) (hname : ∀ i, (x i).name = [])
      (hraw : ∀ i, (x i).raw = gs.flatMap Glyph.bytes) : Spelt x .number (gs.map same ++ qs) qs
  | string {g h : Glyph} {rs qs : List Piece} (hg : g.code = 34 ∨ g.code = 39)
      (hh : h.code = g.code) (hname : ∀ i, (x i).name = [])
      (hraw : ∀ i, (x i).raw = text i (same g :: (rs ++ [same h])))
      (hvalue : ∀ i, Escape.units false (text i rs) = .ok (x i).value)
      (hgap : isRigid rs = true ∨
        ∀ i, (58 : UInt16) ∈ (x i).value ∨ (47 : UInt16) ∈ (x i).value) :
      Spelt x .string (same g :: (rs ++ same h :: qs)) qs
  | mark {t : Token} {s : String} {gs : List Glyph} {qs : List Piece}
      (hs : (s, t) ∈ Token.punctuators) (hcodes : gs.map Glyph.code = s.toList.map (·.toNat))
      (hname : ∀ i, (x i).name = []) (hraw : ∀ i, (x i).raw = []) :
      Spelt x t (gs.map same ++ qs) qs
  | endOfInput (hname : ∀ i, (x i).name = []) (hraw : ∀ i, (x i).raw = []) :
      Spelt x .endOfInput [] []
  | illegal {ps qs : List Piece} (hqs : qs <:+ ps) (hname : ∀ i, (x i).name = [])
      (hraw : (∃ raw, ∀ i, (x i).raw = raw) ∨
        ∀ i, ∃ b rest, (x i).raw = b :: rest ∧ (b = 34 ∨ b = 39)) : Spelt x .illegal ps qs

/-- The two lexemes are one token from the first place to the second. -/
structure Lexes (z : Respacing) (x : Side → Lexeme) (t : Token) (ps qs : List Piece) : Prop where
  suffix : ps <:+ z.pieces
  front : startsGap ps = false
  token : ∀ i, (x i).token = t
  start : ∀ i, (x i).start = z.offset i ps
  tail : ∀ i, (x i).tail = text i ps
  spelt : Spelt x t ps qs

variable {x : Side → Lexeme} {t : Token}

/-- What is behind a token is an end of the text. -/
theorem Spelt.suffix (h : Spelt x t ps qs) : qs <:+ ps := by
  cases h with
  | word | number | mark => exact List.suffix_append _ _
  | privateName => exact (List.suffix_append _ _).trans (List.suffix_cons _ _)
  | @string g h rs _ =>
    exact ((List.suffix_cons (same h) qs).trans (List.suffix_append _ _)).trans
      (List.suffix_cons _ _)
  | endOfInput => exact List.suffix_rfl
  | illegal hqs => exact hqs

/-- The name of a token is the same on both sides. -/
theorem Spelt.name (h : Spelt x t ps qs) : ∃ name, ∀ i, (x i).name = name := by
  cases h with
  | word _ _ _ _ _ _ hname | privateName _ _ _ _ _ hname => exact ⟨_, hname⟩
  | number _ _ hname | string _ _ hname | mark _ _ hname | endOfInput hname | illegal _ hname =>
    exact ⟨_, hname⟩

/-- A character of a part of the text is one of the text. -/
theorem mem_glyphs_source {g : Glyph} (hps : ps <:+ z.pieces) {i : Side} (hg : g ∈ glyphs i ps) :
    g ∈ Utf8.glyphs (z.source i) := by
  obtain ⟨rs, hrs⟩ := hps
  rw [Respacing.source, z.cut, ← hrs, Piece.glyphs_append]
  exact List.mem_append_right _ hg

theorem bytes_of_code {g : Glyph} (hps : same g :: ps <:+ z.pieces) (hg : g.code < 0x80) :
    g.bytes = [g.code.toUInt8] :=
  Utf8.bytes_of_code_lt (mem_glyphs_source hps (i := .old) (by simp)) hg

/-- The text of a token is the same on both sides, or both are strings in quotes. -/
theorem Spelt.raw (h : Spelt x t ps qs) (hps : ps <:+ z.pieces) :
    (∃ raw, ∀ i, (x i).raw = raw) ∨ ∀ i, ∃ b rest, (x i).raw = b :: rest ∧ (b = 34 ∨ b = 39) := by
  cases h with
  | word _ _ _ _ _ _ _ hraw | privateName _ _ _ _ _ _ hraw => exact .inl ⟨_, hraw⟩
  | number _ _ _ hraw | mark _ _ _ hraw | endOfInput _ hraw => exact .inl ⟨_, hraw⟩
  | @string g h rs qs hg _ _ hraw =>
    right
    intro i
    have hbytes := bytes_of_code hps (by omega)
    rw [hraw, text_same, hbytes]
    refine ⟨_, _, rfl, ?_⟩
    rcases hg with hg | hg <;> simp [hg]
  | illegal _ _ hraw => exact hraw

/-- What two lexers have in common after a token that starts at `ps`. -/
structure Scan (z : Respacing) (dirty : Bool) (ps : List Piece) (y : Side → Lexeme × Lexer)
    (dirty' : Bool) (t : Token) (qs rs : List Piece) (insert implicit : Bool) : Prop where
  mono : dirty = true → dirty' = true
  lexes : Lexes z (fun i ↦ (y i).1) t ps qs
  paces : Paces z dirty' rs fun i ↦ (y i).2.reader
  insert : ∀ i, (y i).2.insertSemicolon = insert
  implicit : ∀ i, (y i).2.implicitSemicolon = implicit
  suffix : rs <:+ qs
  joined : Joined z qs rs
  moved : t = .illegal ∨ rs ≠ z.pieces ∨ rs = []

/-- Both lexers find the same token at `ps`. -/
def Scans (z : Respacing) (dirty : Bool) (ps : List Piece) (y : Side → Lexeme × Lexer) : Prop :=
  ∃ dirty' t qs rs insert implicit, Scan z dirty ps y dirty' t qs rs insert implicit

/-- Behind something there is not the whole text. -/
theorem ne_of_cons_suffix {p : Piece} (hps : p :: ps <:+ z.pieces) (hqs : qs <:+ ps) :
    qs ≠ z.pieces := by
  rintro rfl
  have hlength := (hps.trans hqs).length_le
  rw [List.length_cons] at hlength
  omega

/-! ### Words -/

/-- A word lies in characters that both texts have. -/
theorem exists_word (hvalid : Valid ps) :
    ∃ (gs : List Glyph) (qs : List Piece) (w : Word), ps = gs.map same ++ qs ∧
      w.count = gs.length ∧ ∀ i, Word.measure 0 true (scalars i ps) = w := by
  obtain ⟨gs, qs, rfl, hqs⟩ := exists_front ps
  have hmeasure : ∀ i, Word.measure 0 true (scalars i (gs.map same ++ qs))
      = Word.measure 0 true (gs.map Glyph.scalar) := by
    intro i
    rw [scalars_append, scalars, glyphs_map_same]
    exact Word.measure_append (halts_scalars hvalid.of_append hqs i) true (Nat.zero_le _)
  have hcount := (@Word.count_le_length 0 true (gs.map Glyph.scalar) (Nat.zero_le _)).2
  rw [List.length_map] at hcount
  generalize Word.measure 0 true (gs.map Glyph.scalar) = w at hmeasure hcount
  refine ⟨gs.take w.count, (gs.drop w.count).map same ++ qs, w, ?_, ?_, hmeasure⟩
  · rw [← List.append_assoc, ← List.map_append, List.take_append_drop]
  · rw [List.length_take, Nat.min_eq_left hcount]

/-- Both readers move past the same characters. -/
theorem Paces.advance_same {gs : List Glyph} {r : Side → Reader}
    (h : Paces z dirty (gs.map same ++ ps) r) :
    ∃ dirty', (dirty = true → dirty' = true) ∧
      Paces z dirty' ps fun i ↦ (r i).advance gs.length := by
  obtain ⟨dirty', hle, hpaces⟩ := h.advance
  simp only [glyphs_map_same] at hpaces
  exact ⟨dirty', hle, hpaces⟩

/-- A word that is well-formed and starts like an identifier has a first character. -/
theorem count_pos_of_isIdentifierStart {g : Scalar} {gs : List Scalar}
    (hg : isIdentifierStart g.code = true)
    (hform : (Word.measure 0 true (g :: gs)).wellFormed = true) :
    0 < (Word.measure 0 true (g :: gs)).count := by
  rcases Word.cases_of_wellFormed hform with
    ⟨_, _, -, -, -, -, hmeasure⟩ | ⟨-, -, -, hmeasure⟩ | ⟨-, hpart, -⟩
  · rw [hmeasure]
    exact Nat.succ_pos _
  · rw [hmeasure]
    exact Nat.succ_pos _
  · simp [isIdentifierPart, hg] at hpart

/-- A reserved word is spelt as it is listed. -/
theorem ofWord?_mem {name : Bytes} {t : Token} (h : Token.ofWord? name = some t) :
    ∃ s, (s, t) ∈ Token.words ∧ utf8 s = name := by
  simp only [Token.ofWord?, Option.map_eq_some_iff] at h
  obtain ⟨⟨s, t'⟩, hfind, rfl⟩ := h
  refine ⟨s, List.mem_of_find?_eq_some hfind, ?_⟩
  simpa using List.find?_some hfind

theorem isName_of_mem_words : ∀ p ∈ Token.words, p.2.isName = true := by decide

/-- What a well-formed word is taken for. -/
theorem classify_cases (reserved : Reserved) (w : Word) :
    (Lexer.classify reserved w).1.isName = true ∧
      ((Lexer.classify reserved w).1 = .identifier ∨ (Lexer.classify reserved w).1 = .escapedWord ∨
        w.escaped = false ∧ Token.ofWord? w.name = some (Lexer.classify reserved w).1) := by
  unfold Lexer.classify
  split
  · exact ⟨rfl, .inl rfl⟩
  case h_2 t ht =>
    obtain ⟨s, hmem, -⟩ := ofWord?_mem ht
    have hname := isName_of_mem_words _ hmem
    split
    · split
      · exact ⟨rfl, .inl rfl⟩
      · exact ⟨rfl, .inr (.inl rfl)⟩
    case isFalse hescaped =>
      rw [Bool.not_eq_true] at hescaped
      split <;> exact ⟨hname, .inr (.inr ⟨hescaped, ht⟩)⟩

/-- The text between two places. -/
theorem take_text (hps : rs ++ qs <:+ z.pieces) (i : Side) :
    (text i (rs ++ qs)).take (z.offset i qs - z.offset i (rs ++ qs)) = text i rs := by
  rw [Respacing.offset_append hps i, Nat.add_sub_cancel_left, text_append, List.take_left]

/-- The text of a lexeme between two readers that stand at two places. -/
theorem raw_lexeme {r r' : Side → Reader} (hr : ∀ i, Stands z i (rs ++ qs) (r i))
    (hr' : ∀ i, Stands z i qs (r' i)) (hps : rs ++ qs <:+ z.pieces) (t : Token) (i : Side) :
    (Lexer.lexeme t (r i) (r' i)).raw = text i rs := by
  have htake := take_text hps i
  rw [← (hr i).tail, ← (hr i).offset, ← (hr' i).offset] at htake
  exact htake

/-- A lexeme that starts where the readers stand. -/
theorem lexes_of_stands {r : Side → Reader} {f : Side → Lexeme}
    (hr : ∀ i, Stands z i ps (r i)) (hps : ps <:+ z.pieces) (hfront : startsGap ps = false)
    (hstart : ∀ i, (f i).start = (r i).offset) (htail : ∀ i, (f i).tail = (r i).tail)
    (htoken : ∀ i, (f i).token = t) (hspelt : Spelt f t ps qs) : Lexes z f t ps qs :=
  ⟨hps, hfront, htoken, fun i ↦ by rw [hstart, (hr i).offset], fun i ↦ by rw [htail, (hr i).tail],
    hspelt⟩

theorem raw_lexeme_self (t : Token) (r : Reader) : (Lexer.lexeme t r r).raw = [] := by
  simp [Lexer.lexeme]

variable {l : Side → Lexer} {insert implicit : Bool}

/-- An illegal token without a text. -/
theorem scan_illegal (h : Paces z dirty ps fun i ↦ (l i).reader) (hfront : startsGap ps = false)
    {dirty' : Bool} (hle : dirty = true → dirty' = true) (hqs : qs <:+ ps) {l' : Side → Lexer}
    (h' : Paces z dirty' qs fun i ↦ (l' i).reader)
    (hinsert : ∀ i, (l' i).insertSemicolon = insert)
    (himplicit : ∀ i, (l' i).implicitSemicolon = implicit) :
    Scan z dirty ps (fun i ↦ (Lexer.lexeme .illegal (l i).reader (l i).reader, l' i)) dirty'
      .illegal qs qs insert implicit where
  mono := hle
  lexes := lexes_of_stands h.stands h.suffix hfront (fun _ ↦ rfl) (fun _ ↦ rfl) (fun _ ↦ rfl)
    (.illegal hqs (fun _ ↦ rfl) (.inl ⟨[], fun _ ↦ raw_lexeme_self _ _⟩))
  paces := h'
  insert := hinsert
  implicit := himplicit
  suffix := List.suffix_rfl
  joined := joined_refl _
  moved := .inl rfl

/-- The blanks behind `async`. -/
theorem exists_skipBlanks (h : Paces z dirty ps fun i ↦ (l i).reader) :
    ∃ dirty' qs, (dirty = true → dirty' = true) ∧ qs <:+ ps ∧ startsGap qs = false ∧
      Joined z ps qs ∧ Paces z dirty' qs fun i ↦ (l i).skipBlanks.reader := by
  obtain ⟨qs, rs, rfl, hgap, hsep, hlength⟩ := exists_inner h.valid
  obtain ⟨dirty', hle, hpaces⟩ := h.advance
  refine ⟨dirty', rs, hle, List.suffix_append _ _, hgap,
    joined_of_separators h.suffix hsep, ?_⟩
  have hskip : ∀ i, (l i).skipBlanks.reader = (l i).reader.advance (glyphs i qs).length := by
    intro i
    rw [← hlength i, ← (h.stands i).rest]
    rfl
  simpa only [hskip] using hpaces

/-- Where no gap starts, the current characters are the same. -/
theorem Paces.current? {r : Side → Reader} (h : Paces z dirty ps r) (hgap : startsGap ps = false)
    (i : Side) : (r i).current? = (same? ps).map Glyph.code := by
  rw [Reader.current?, (h.stands i).rest]
  cases ps with
  | nil => rfl
  | cons p ps =>
    cases p with
    | same g => rfl
    | gap blanks => cases hgap

/-- **Words.** -/
theorem scans_word {g : Glyph} (h : Paces z dirty (same g :: ps) fun i ↦ (l i).reader)
    (hg : isIdentifierStart g.code = true) (hinsert : ∀ i, (l i).insertSemicolon = insert)
    (himplicit : ∀ i, (l i).implicitSemicolon = implicit) (reserved : Reserved) :
    Scans z dirty (same g :: ps) fun i ↦ (l i).scanWord reserved := by
  obtain ⟨gs, qs, w, hps, hcount, hword⟩ := exists_word h.valid
  have hsuffix := h.suffix
  have hstands := h.stands
  have hmeasure : ∀ i, Word.measure 0 true (l i).reader.rest = w := fun i ↦ by
    rw [(hstands i).rest, hword i]
  have hmoved : Paces z dirty (gs.map same ++ qs) fun i ↦ (l i).reader := by rwa [← hps]
  obtain ⟨dirty', hle, hpaces⟩ := hmoved.advance_same
  rw [← hcount] at hpaces
  cases hform : w.wellFormed with
  | false =>
    have hscan : ∀ i, (l i).scanWord reserved
        = (Lexer.lexeme .illegal (l i).reader (l i).reader,
          { (l i).advance w.count with insertSemicolon := false }) := by
      intro i
      simp [Lexer.scanWord, hmeasure, hform]
    simp only [hscan]
    exact ⟨dirty', _, qs, qs, false, implicit, scan_illegal h rfl hle (hps ▸ List.suffix_append _ _)
      hpaces (fun _ ↦ rfl) himplicit⟩
  | true =>
    obtain ⟨hname, hclass⟩ := classify_cases reserved w
    have hgs : gs ≠ [] := by
      rintro rfl
      have hpos := @count_pos_of_isIdentifierStart g.scalar (scalars .old ps) hg
        (by rw [← scalars_same, hword .old]; exact hform)
      rw [← scalars_same, hword .old, hcount] at hpos
      exact absurd hpos (Nat.lt_irrefl 0)
    -- The lexeme, whatever it is taken for in the end.
    have hspelt : ∀ {t : Token}, t.isName = true → (t = .identifier ∨ t = .escapedWord ∨
          w.escaped = false ∧ Token.ofWord? w.name = some t) → ∀ f : Side → Lexeme,
        (∀ i, f i = { Lexer.lexeme t (l i).reader ((l i).advance w.count).reader with
          name := w.name }) → Lexes z f t (same g :: ps) qs := by
      intro t ht htclass f hf
      refine lexes_of_stands hstands hsuffix rfl (fun i ↦ by rw [hf]; rfl) (fun i ↦ by rw [hf]; rfl)
        (fun i ↦ by rw [hf]; rfl) ?_
      rw [hps] at hword hstands hsuffix ⊢
      refine .word ht hgs hword hform hcount htclass (fun i ↦ by rw [hf]) fun i ↦ ?_
      rw [hf, ← text_map_same (i := i)]
      exact raw_lexeme hstands hpaces.stands hsuffix t i
    have hlate : qs ≠ z.pieces := by
      refine ne_of_cons_suffix h.suffix ?_
      match gs, hgs, hps with
      | c :: gs, _, hps =>
        have htail : ps = gs.map same ++ qs := by simpa using (List.cons.inj hps).2
        exact htail ▸ List.suffix_append _ _
    by_cases hasync : (Lexer.classify reserved w).1 = .asyncWord
    · obtain ⟨dirty'', rs, hle', hrs, hgap, hjoined, hpaces'⟩ :=
        @exists_skipBlanks _ _ _ (fun i ↦ (l i).advance w.count) hpaces
      have hcurrent := hpaces'.current? hgap
      have hlate' : rs ≠ z.pieces := fun heq ↦
        hlate (List.IsSuffix.eq_of_length_le (hpaces.suffix) (heq ▸ hrs.length_le))
      have hscan : ∀ i, (l i).scanWord reserved
          = if ((same? rs).map Glyph.code).any isLineBreak then
              ({ Lexer.lexeme .identifier (l i).reader ((l i).advance w.count).reader with
                  name := w.name },
                { ((l i).advance w.count).skipBlanks with insertSemicolon := true })
            else
              ({ Lexer.lexeme .asyncWord (l i).reader ((l i).advance w.count).reader with
                  name := w.name }, ((l i).advance w.count).skipBlanks) := by
        intro i
        simp [Lexer.scanWord, hmeasure, hform, hasync, hcurrent, Lexer.lexeme]
      have hmono : dirty = true → dirty'' = true := fun hd ↦ hle' (hle hd)
      simp only [hscan]
      split
      · exact ⟨dirty'', _, qs, rs, true, implicit, hmono, hspelt rfl (.inl rfl) _ fun _ ↦ rfl,
          hpaces', fun _ ↦ rfl, himplicit, hrs, hjoined, .inr (.inl hlate')⟩
      · exact ⟨dirty'', _, qs, rs, insert, implicit, hmono,
          hspelt rfl (hasync ▸ hclass) _ fun _ ↦ rfl,
          hpaces', hinsert, himplicit, hrs, hjoined, .inr (.inl hlate')⟩
    · have hscan : ∀ i, (l i).scanWord reserved
          = ({ Lexer.lexeme (Lexer.classify reserved w).1 (l i).reader
                ((l i).advance w.count).reader with name := w.name },
            { (l i).advance w.count with
              insertSemicolon := (Lexer.classify reserved w).2.getD insert }) := by
        intro i
        simp [Lexer.scanWord, hmeasure, hform, hasync, hinsert]
      simp only [hscan]
      exact ⟨dirty', _, qs, qs, _, implicit, hle, hspelt hname hclass _ fun _ ↦ rfl, hpaces,
        fun _ ↦ rfl, himplicit, List.suffix_rfl, joined_refl _, .inr (.inl hlate)⟩

theorem Paces.advance_one {g : Glyph} {r : Side → Reader} (h : Paces z dirty (same g :: ps) r) :
    ∃ dirty', (dirty = true → dirty' = true) ∧ Paces z dirty' ps fun i ↦ (r i).advance 1 :=
  ⟨_, fun hd ↦ by simp [hd], h.step⟩

/-- **Private names.** -/
theorem scans_privateName {g : Glyph} (h : Paces z dirty (same g :: ps) fun i ↦ (l i).reader)
    (hg : g.code = 35) (himplicit : ∀ i, (l i).implicitSemicolon = implicit) :
    Scans z dirty (same g :: ps) fun i ↦ (l i).scanPrivateName := by
  obtain ⟨d, hd, hopened⟩ := h.advance_one
  obtain ⟨gs, qs, w, rfl, hcount, hword⟩ := exists_word hopened.valid
  obtain ⟨dirty', hle, hpaces⟩ := hopened.advance_same
  rw [← hcount] at hpaces
  have hmono : dirty = true → dirty' = true := fun h ↦ hle (hd h)
  have hmeasure : ∀ i, Word.measure 0 true ((l i).advance 1).reader.rest = w := fun i ↦ by
    rw [← hword i, ← (hopened.stands i).rest]
    rfl
  have hqs : qs <:+ same g :: (gs.map same ++ qs) :=
    (List.suffix_append _ _).trans (List.suffix_cons _ _)
  cases hform : w.wellFormed && w.count != 0 with
  | false =>
    have hscan : ∀ i, (l i).scanPrivateName
        = (Lexer.lexeme .illegal (l i).reader (l i).reader,
          { ((l i).advance 1).advance w.count with insertSemicolon := false }) := by
      intro i
      simp only [Lexer.scanPrivateName, hmeasure, hform, Bool.false_eq_true, if_false]
    simp only [hscan]
    exact ⟨dirty', _, qs, qs, false, implicit, scan_illegal h rfl hmono hqs hpaces (fun _ ↦ rfl)
      himplicit⟩
  | true =>
    simp only [Bool.and_eq_true, bne_iff_ne] at hform
    have hscan : ∀ i, (l i).scanPrivateName
        = ({ Lexer.lexeme .privateName (l i).reader (((l i).advance 1).advance w.count).reader with
              raw := (Lexer.lexeme .privateName ((l i).advance 1).reader
                (((l i).advance 1).advance w.count).reader).raw
              name := w.name },
          { ((l i).advance 1).advance w.count with insertSemicolon := true }) := by
      intro i
      simp [Lexer.scanPrivateName, hmeasure, hform]
    simp only [hscan]
    have hgs : gs ≠ [] := by
      rintro rfl
      exact hform.2 hcount
    refine ⟨dirty', .privateName, qs, qs, true, implicit, hmono, ?_, hpaces, fun _ ↦ rfl, himplicit,
      List.suffix_rfl, joined_refl _,
      .inr (.inl (ne_of_cons_suffix h.suffix (List.suffix_append _ _)))⟩
    refine lexes_of_stands h.stands h.suffix rfl (fun _ ↦ rfl) (fun _ ↦ rfl) (fun _ ↦ rfl) ?_
    refine .privateName hg hgs hword hform.1 hcount (fun _ ↦ rfl) fun i ↦ ?_
    rw [← text_map_same (i := i)]
    exact raw_lexeme hopened.stands hpaces.stands hopened.suffix .privateName i

/-! ### Strings -/

/-- Pieces in front of a character are valid if no gap could end there. -/
theorem Valid.of_append_left {g : Glyph} (h : Valid (ps ++ same g :: qs))
    (hg : g.code ≠ 58 ∧ g.code ≠ 47) : Valid ps := by
  induction ps with
  | nil => trivial
  | cons p ps ih =>
    cases p with
    | same c =>
      refine ⟨fun hgap ↦ h.1 ?_, ih h.2⟩
      match ps, hgap with
      | gap _ :: _, _ => rfl
    | gap blanks =>
      obtain ⟨hfill, ⟨c, rest, hrest, hc⟩, hvalid⟩ := h
      refine ⟨hfill, ?_, ih hvalid⟩
      match ps, hrest with
      | [], hrest =>
        obtain ⟨rfl, -⟩ : g = c ∧ _ := by simpa using hrest
        omega
      | p :: ps, hrest =>
        obtain ⟨rfl, -⟩ : p = same c ∧ _ := List.cons.inj hrest
        exact ⟨c, ps, rfl, hc⟩

/-- Pieces before a character below `0x80` are cut as they are in the whole. -/
theorem cut_of_append_left {g : Glyph} (hps : ps ++ same g :: qs <:+ z.pieces)
    (hg : g.code < 0x80) (i : Side) : Utf8.glyphs (text i ps) = glyphs i ps := by
  have hbytes := bytes_of_code ((List.suffix_append ps _).trans hps) hg
  have hwhole := Respacing.glyphs_text hps i
  have hbehind := Respacing.glyphs_text ((List.suffix_append ps _).trans hps) i
  have hstarts : Utf8.Starts (text i (same g :: qs)) := by
    rw [text_same, hbytes]
    refine Utf8.starts_cons_of_lt ?_ _
    rw [UInt8.lt_iff_toNat_lt]
    simpa using Nat.lt_of_le_of_lt (Nat.mod_le _ _) hg
  rw [text_append, Utf8.glyphs_append hstarts, hbehind, Piece.glyphs_append] at hwhole
  exact List.append_cancel_right hwhole

/-- Without its quotes, the text of a string is what stands between them. -/
theorem dropLast_text {g h : Glyph} {i : Side} (hg : g.bytes.length = 1) (hh : h.bytes.length = 1) :
    ((text i (same g :: (ps ++ [same h]))).drop 1).dropLast = text i ps := by
  obtain ⟨b, hb⟩ := List.length_eq_one_iff.1 hg
  obtain ⟨c, hc⟩ := List.length_eq_one_iff.1 hh
  simp [hb, hc]

/-- A string that is closed, with an escape that may be malformed. -/
theorem scans_closed {g c : Glyph} {inner : List Piece}
    (h : Paces z dirty (same g :: (inner ++ same c :: rs)) fun i ↦ (l i).reader)
    (hg : g.code = 34 ∨ g.code = 39) (hc : c.code = g.code) {dirty' : Bool}
    (hmono : dirty = true → dirty' = true) {next : Side → Lexer}
    (hnext : Paces z dirty' rs fun i ↦ (next i).reader)
    (hinsert : ∀ i, (next i).insertSemicolon = insert)
    (himplicit : ∀ i, (next i).implicitSemicolon = implicit) {x : Side → Lexeme}
    (hx : ∀ i, x i = Lexer.lexeme .string (l i).reader (next i).reader) :
    Scans z dirty (same g :: (inner ++ same c :: rs)) fun i ↦
      match Escape.units false (((x i).raw.drop 1).dropLast) with
      | .ok units => ({ x i with value := units }, next i)
      | .error _ => ({ x i with token := .illegal }, next i) := by
  have hopened : inner ++ same c :: rs <:+ z.pieces := (List.suffix_cons _ _).trans h.suffix
  have hgbyte := bytes_of_code h.suffix (show g.code < 0x80 by omega)
  have hcbyte := bytes_of_code ((List.suffix_append inner _).trans hopened)
    (show c.code < 0x80 by omega)
  have hraw : ∀ i, (x i).raw = text i (same g :: (inner ++ [same c])) := by
    intro i
    have hassoc : same g :: (inner ++ same c :: rs) = (same g :: (inner ++ [same c])) ++ rs := by
      simp
    rw [hx]
    exact raw_lexeme (fun i ↦ hassoc ▸ h.stands i) hnext.stands (hassoc ▸ h.suffix) .string i
  have htext : ∀ i, ((x i).raw.drop 1).dropLast = text i inner := by
    intro i
    rw [hraw i]
    exact dropLast_text (by rw [hgbyte]; rfl) (by rw [hcbyte]; rfl)
  have hlate : rs ≠ z.pieces := ne_of_cons_suffix h.suffix
    ((List.suffix_cons _ _).trans (List.suffix_append _ _))
  have hstands : ∀ (f : Side → Lexeme) (t : Token), (∀ i, (f i).start = (x i).start) →
      (∀ i, (f i).tail = (x i).tail) → (∀ i, (f i).token = t) →
      Spelt f t (same g :: (inner ++ same c :: rs)) rs →
      Lexes z f t (same g :: (inner ++ same c :: rs)) rs := by
    intro f t hstart htail htoken hspelt
    exact lexes_of_stands h.stands h.suffix rfl (fun i ↦ by rw [hstart, hx]; rfl)
      (fun i ↦ by rw [htail, hx]; rfl) htoken hspelt
  simp only [htext]
  rcases (Escape.reading_units false).agree
      (Valid.of_append_left (z.valid.of_suffix hopened) (by omega))
      (cut_of_append_left hopened (by omega)) with hok | hbad
  · choose value hvalue hgap using hok
    simp only [hvalue]
    refine ⟨dirty', .string, rs, rs, insert, implicit, hmono, ?_, hnext, hinsert, himplicit,
      List.suffix_rfl, joined_refl _, .inr (.inl hlate)⟩
    refine hstands _ _ (fun _ ↦ rfl) (fun _ ↦ rfl) (fun i ↦ by rw [hx]; rfl) ?_
    refine .string hg hc (fun i ↦ by rw [hx]; rfl) hraw hvalue ?_
    cases hrigid : isRigid inner with
    | true => exact .inl rfl
    | false => exact .inr fun i ↦ by simpa [hrigid] using hgap i
  · choose cause hcause using hbad
    simp only [hcause]
    refine ⟨dirty', .illegal, rs, rs, insert, implicit, hmono, ?_, hnext, hinsert, himplicit,
      List.suffix_rfl, joined_refl _, .inl rfl⟩
    refine hstands _ _ (fun _ ↦ rfl) (fun _ ↦ rfl) (fun _ ↦ rfl) ?_
    refine .illegal (((List.suffix_cons _ _).trans (List.suffix_append _ _)).trans
      (List.suffix_cons _ _)) (fun i ↦ by rw [hx]; rfl) (.inr fun i ↦ ?_)
    refine ⟨g.code.toUInt8, text i (inner ++ [same c]), ?_, ?_⟩
    · rw [hraw i, text_same, hgbyte]
      rfl
    · rcases hg with hg | hg <;> simp [hg]

/-- **Strings.** -/
theorem scans_string {g : Glyph} (h : Paces z dirty (same g :: ps) fun i ↦ (l i).reader)
    (hg : g.code = 34 ∨ g.code = 39) (himplicit : ∀ i, (l i).implicitSemicolon = implicit) :
    Scans z dirty (same g :: ps) fun i ↦ (l i).scanString g.code := by
  obtain ⟨d, hd, hopened⟩ := h.advance_one
  obtain ⟨qs, rs, ending, rfl, hmarks, -, hextent⟩ :=
    @even_stringExtent _ _ hg hopened.valid .plain (by simp)
  obtain ⟨dirty', hle, hpaces⟩ := hopened.advance
  have hmono : dirty = true → dirty' = true := fun h ↦ hle (hd h)
  have hstring : ∀ i, stringExtent g.code .plain ((l i).advance 1).reader.rest
      = ⟨(glyphs i qs).length, ending⟩ := by
    intro i
    have hi := hextent i
    rw [← (hopened.stands i).rest] at hi
    simp only [Extent.split, Prod.ext_iff] at hi
    exact congrArg₂ Extent.mk hi.1 hi.2
  by_cases hclosed : ending = .closed
  · subst hclosed
    obtain ⟨inner, hs, rfl, hcodes⟩ := hmarks
    obtain ⟨c, rfl, hc⟩ := List.map_eq_singleton_iff.1 hcodes
    have hassoc : inner ++ List.map same [c] ++ rs = inner ++ same c :: rs := by simp
    rw [hassoc] at h ⊢
    let next : Side → Lexer := fun i ↦
      { ((l i).advance 1).advance (glyphs i (inner ++ [same c])).length with
        insertSemicolon := true }
    let x : Side → Lexeme := fun i ↦ Lexer.lexeme .string (l i).reader (next i).reader
    have hscan : ∀ i, (l i).scanString g.code
        = match Escape.units false (((x i).raw.drop 1).dropLast) with
          | .ok units => ({ x i with value := units }, next i)
          | .error _ => ({ x i with token := .illegal }, next i) := by
      intro i
      simp only [Lexer.scanString, hstring i]
      rfl
    simp only [hscan]
    exact @scans_closed z dirty rs l true implicit g c inner h hg hc dirty' hmono next hpaces
      (fun _ ↦ rfl) himplicit x fun _ ↦ rfl
  · have hscan : ∀ i, (l i).scanString g.code
        = (Lexer.lexeme .illegal (l i).reader (l i).reader,
          { ((l i).advance 1).advance (glyphs i qs).length with insertSemicolon := true }) := by
      intro i
      simp [Lexer.scanString, hstring, hclosed]
    simp only [hscan]
    have hrs : rs <:+ same g :: (qs ++ rs) :=
      (List.suffix_append _ _).trans (List.suffix_cons _ _)
    exact ⟨dirty', _, rs, rs, true, implicit, scan_illegal h rfl hmono hrs hpaces (fun _ ↦ rfl)
      himplicit⟩

/-! ### Numerals -/

namespace Numeral

/-- A numeral that is finished is a number or illegal. -/
theorem finish_token (r : Reader) : (finish r).1 = .number ∨ (finish r).1 = .illegal := by
  unfold finish
  repeat' split
  all_goals simp

/-- A numeral that ends with an exponent is a number or illegal. -/
theorem exponent_token (r : Reader) : (exponent r).1 = .number ∨ (exponent r).1 = .illegal := by
  unfold exponent
  dsimp only
  repeat' split
  all_goals first | exact finish_token _ | exact .inr rfl

theorem fraction_token (r : Reader) : (fraction r).1 = .number ∨ (fraction r).1 = .illegal := by
  unfold fraction
  split <;> exact exponent_token _

/-- A numeral with a prefix is a number or illegal. -/
theorem based_token (base : Nat) (r : Reader) :
    (based base r).1 = .number ∨ (based base r).1 = .illegal := by
  unfold based
  dsimp only
  split
  · exact finish_token _
  · exact .inr rfl

/-- A numeral is a number or illegal. -/
theorem read_token (r : Reader) : (read r).1 = .number ∨ (read r).1 = .illegal := by
  unfold read
  dsimp only
  repeat' split
  · exact based_token _ _
  · exact based_token _ _
  · exact based_token _ _
  · exact fraction_token _
  · exact finish_token _
  · exact fraction_token _

theorem readFraction_token (r : Reader) :
    (readFraction r).1 = .number ∨ (readFraction r).1 = .illegal :=
  exponent_token _

end Numeral

/-- A numeral that has been read from its first character on. -/
theorem scans_numeral {g : Glyph} (h : Paces z dirty (same g :: ps) fun i ↦ (l i).reader)
    (hg : mayPrecede g.code = true) (himplicit : ∀ i, (l i).implicitSemicolon = implicit)
    {f : Reader → Token × Reader} {d : Bool} (hd : dirty = true → d = true)
    (htoken : ∃ t, ∀ i, (f (l i).reader).1 = t) (hkind : ∀ r, (f r).1 = .number ∨ (f r).1 = .illegal)
    (hreaches : Reaches z d ps fun i ↦ (f (l i).reader).2) :
    Scans z dirty (same g :: ps) fun i ↦
      (Lexer.lexeme (f (l i).reader).1 (l i).reader (f (l i).reader).2,
        { l i with reader := (f (l i).reader).2, insertSemicolon := true }) := by
  obtain ⟨t, ht⟩ := htoken
  obtain ⟨gs, qs, dirty', rfl, hgs, hle, hpaces⟩ := hreaches
  have hraw : ∀ t i, (Lexer.lexeme t (l i).reader (f (l i).reader).2).raw
      = (g :: gs).flatMap Glyph.bytes := by
    intro t i
    rw [← text_map_same (i := i)]
    exact @raw_lexeme z qs ((g :: gs).map same) (fun i ↦ (l i).reader)
      (fun i ↦ (f (l i).reader).2) h.stands hpaces.stands h.suffix t i
  have hqs : qs <:+ same g :: (gs.map same ++ qs) :=
    (List.suffix_append _ _).trans (List.suffix_cons _ _)
  simp only [ht]
  refine ⟨dirty', t, qs, qs, true, implicit, fun h ↦ hle (hd h), ?_, hpaces, fun _ ↦ rfl, himplicit,
    List.suffix_rfl, joined_refl _,
    .inr (.inl (ne_of_cons_suffix h.suffix (List.suffix_append _ _)))⟩
  refine lexes_of_stands h.stands h.suffix rfl (fun _ ↦ rfl) (fun _ ↦ rfl) (fun _ ↦ rfl) ?_
  have hnumber : t = .number ∨ t = .illegal := by
    rw [← ht .old]
    exact hkind _
  rcases hnumber with rfl | rfl
  · refine @Spelt.number _ (g :: gs) qs (by simp) ?_ (fun _ ↦ rfl) (hraw _)
    simpa [hg] using hgs
  · exact .illegal hqs (fun _ ↦ rfl) (.inl ⟨_, hraw _⟩)

/-- **Numerals.** -/
theorem scans_number {g : Glyph} (h : Paces z dirty (same g :: ps) fun i ↦ (l i).reader)
    (hg : isAsciiDigit g.code = true ∨ g.code = 46)
    (himplicit : ∀ i, (l i).implicitSemicolon = implicit) :
    Scans z dirty (same g :: ps) fun i ↦ (l i).scanNumber := by
  obtain hno | ⟨hyes, -⟩ := h.test (at?_eq · 46) (by decide)
  · have hdigit : isAsciiDigit g.code = true := by
      rcases hg with hg | hg
      · exact hg
      · have hat := @Paces.at? z dirty _ _ h 46 (by decide) .old
        rw [hno] at hat
        simp [same?, hg] at hat
    obtain ⟨d, hd, htoken, hreaches⟩ := Numeral.agrees_read h hdigit
    have hscan : ∀ i, (l i).scanNumber
        = (Lexer.lexeme (Numeral.read (l i).reader).1 (l i).reader (Numeral.read (l i).reader).2,
          { l i with reader := (Numeral.read (l i).reader).2, insertSemicolon := true }) := by
      intro i
      simp only [Lexer.scanNumber, hno, Bool.false_eq_true, if_false]
    simp only [hscan]
    refine scans_numeral h ?_ himplicit hd htoken Numeral.read_token hreaches
    refine @Numeral.mayPrecede_of_isDigit 10 _ ?_
    simp only [isAsciiDigit, Bool.and_eq_true, decide_eq_true_eq] at hdigit
    simp [Numeral.isDigit, hexValue?, hdigit]
    omega
  · have hcode : g.code = 46 := by
      have hat := @Paces.at? z dirty _ _ h 46 (by decide) .old
      rw [hyes] at hat
      simpa [same?] using hat.symm
    obtain ⟨htoken, hreaches⟩ := Numeral.agrees_readFraction h.step
    have hscan : ∀ i, (l i).scanNumber
        = (Lexer.lexeme (Numeral.readFraction (l i).reader.step).1 (l i).reader
            (Numeral.readFraction (l i).reader.step).2,
          { l i with
            reader := (Numeral.readFraction (l i).reader.step).2, insertSemicolon := true }) := by
      intro i
      simp only [Lexer.scanNumber, hyes, if_true]
    simp only [hscan]
    exact scans_numeral (f := fun r ↦ Numeral.readFraction r.step) h (by rw [hcode]; rfl) himplicit
      (fun hd ↦ by simp [hd]) htoken (fun r ↦ Numeral.readFraction_token _) hreaches

/-! ### Punctuators -/

/-- The code points of a text that is ASCII. -/
def codesOf (s : String) : List Nat :=
  s.toList.map (·.toNat)

theorem punctuators_short : ∀ p ∈ Token.punctuators,
    (codesOf p.1).length ≤ 4 ∧ p.1.length = (codesOf p.1).length ∧
      ∀ c ∈ (codesOf p.1).tail, c ∉ stopCodes := by
  decide +kernel

/-- The first punctuator that fits is the same on both sides, and both texts have it. -/
theorem exists_find_punctuator {r : Side → Reader} (h : Paces z dirty ps r)
    (hgap : startsGap ps = false) :
    ∃ found : Option (String × Token),
      (∀ i, Token.punctuators.find? (fun p ↦
        (p.1.toList.map (·.toNat)).isPrefixOf (((r i).rest.take 4).map (·.code))) = found) ∧
      ∀ p ∈ found, p ∈ Token.punctuators ∧ ∃ (gs : List Glyph) (qs : List Piece),
        ps = gs.map same ++ qs ∧ gs.map Glyph.code = codesOf p.1 := by
  have htest : ∀ i, ∀ p ∈ Token.punctuators,
      (codesOf p.1).isPrefixOf (((r i).rest.take 4).map (·.code))
        = (codesOf p.1).isPrefixOf (codes i ps) := by
    intro i p hp
    rw [(h.stands i).rest, List.map_take, isPrefixOf_take (punctuators_short p hp).1]
    rfl
  have hfind : ∀ i, Token.punctuators.find?
        (fun p ↦ (p.1.toList.map (·.toNat)).isPrefixOf (((r i).rest.take 4).map (·.code)))
      = Token.punctuators.find? fun p ↦ (codesOf p.1).isPrefixOf (codes .old ps) := by
    intro i
    refine List.find?_congr fun p hp ↦ (htest i p hp).trans ?_
    rcases exists_isPrefixOf h.valid (punctuators_short p hp).2.2 (.inl hgap) with
      hno | ⟨hyes, -⟩
    · rw [hno, hno]
    · rw [hyes, hyes]
  refine ⟨_, hfind, fun p hp ↦ ⟨List.mem_of_find?_eq_some hp, ?_⟩⟩
  have hmem := List.mem_of_find?_eq_some hp
  have hold := List.find?_some hp
  rcases exists_isPrefixOf h.valid (punctuators_short p hmem).2.2 (.inl hgap) with
    hno | ⟨-, hfront⟩
  · rw [hno] at hold
    exact absurd hold Bool.false_ne_true
  · exact hfront

/-- A punctuator, or an illegal token, that covers given characters. -/
theorem scans_mark {gs : List Glyph} (h : Paces z dirty (gs.map same ++ qs) fun i ↦ (l i).reader)
    (hgs : gs ≠ []) (himplicit : ∀ i, (l i).implicitSemicolon = implicit)
    (ht : t = .illegal ∨ ∃ s, (s, t) ∈ Token.punctuators ∧ gs.map Glyph.code = codesOf s) :
    Scans z dirty (gs.map same ++ qs) fun i ↦
      (Lexer.lexeme t (l i).reader (l i).reader,
        { (l i).advance gs.length with insertSemicolon := Lexer.closesStatement t }) := by
  obtain ⟨dirty', hle, hpaces⟩ := h.advance_same
  match gs, hgs with
  | g :: gs, _ =>
    refine ⟨dirty', t, qs, qs, _, implicit, hle, ?_, hpaces, fun _ ↦ rfl, himplicit,
      List.suffix_rfl, joined_refl _,
      .inr (.inl (ne_of_cons_suffix h.suffix (List.suffix_append _ _)))⟩
    refine lexes_of_stands h.stands h.suffix rfl (fun _ ↦ rfl) (fun _ ↦ rfl) (fun _ ↦ rfl) ?_
    rcases ht with rfl | ⟨s, hs, hcodes⟩
    · exact .illegal (List.suffix_append _ _) (fun _ ↦ rfl)
        (.inl ⟨[], fun i ↦ raw_lexeme_self _ _⟩)
    · exact .mark hs hcodes (fun _ ↦ rfl) fun i ↦ raw_lexeme_self _ _

/-- The name of a punctuator that is taken for what it is. -/
def Token.isPlain : Token → Bool
  | .period | .arrow | .questionDot => false
  | _ => true

/-- A plain punctuator is the first one in the list that stands there. -/
theorem punctuator?_plain {l : Lexer} {p : String × Token}
    (h : Token.punctuators.find? (fun p ↦
      (p.1.toList.map (·.toNat)).isPrefixOf ((l.reader.rest.take 4).map (·.code))) = some p)
    (hp : p.2.isPlain = true) : l.punctuator? = some (p.2, p.1.length) := by
  obtain ⟨s, t⟩ := p
  simp only [Lexer.punctuator?, h]
  cases t <;> first | rfl | simp [Token.isPlain] at hp

theorem eq_of_mem_punctuators : ∀ p ∈ Token.punctuators,
    (p.2 = .period → p.1 = ".") ∧ (p.2 = .arrow → p.1 = "=>") ∧
      (p.2 = .questionDot → p.1 = "?.") ∧ codesOf p.1 ≠ [] := by
  decide +kernel

/-- **Punctuators.** -/
theorem scans_punctuator {g : Glyph} (h : Paces z dirty (same g :: ps) fun i ↦ (l i).reader)
    (himplicit : ∀ i, (l i).implicitSemicolon = implicit) :
    Scans z dirty (same g :: ps) fun i ↦ (l i).scanPunctuator := by
  obtain ⟨found, hfind, hfound⟩ := exists_find_punctuator h rfl
  cases found with
  | none =>
    have hscan : ∀ i, (l i).scanPunctuator
        = (Lexer.lexeme .illegal (l i).reader (l i).reader,
          { ((l i).advance 1).note (l i).reader.offset (.unexpectedToken .illegal) with
            insertSemicolon := false }) := by
      intro i
      simp only [Lexer.scanPunctuator, Lexer.punctuator?, hfind]
    obtain ⟨dirty', hle, hpaces⟩ := h.advance_one
    simp only [hscan]
    exact ⟨true, _, ps, ps, false, implicit, scan_illegal h rfl (fun _ ↦ rfl) (List.suffix_cons _ _)
      (hpaces.note _ _) (fun _ ↦ rfl) himplicit⟩
  | some p =>
    obtain ⟨hmem, gs, qs, hps, hcodes⟩ := hfound p rfl
    obtain ⟨hperiod, harrow, hquestion, hne⟩ := eq_of_mem_punctuators p hmem
    have hgs : gs ≠ [] := by
      rintro rfl
      exact hne hcodes.symm
    -- Whatever the punctuator is taken for, it covers some of the characters in common.
    have hscans : ∀ {t : Token} {cs : List Glyph} {rs : List Piece}, cs ≠ [] →
        same g :: ps = cs.map same ++ rs →
        (t = .illegal ∨ ∃ s, (s, t) ∈ Token.punctuators ∧ cs.map Glyph.code = codesOf s) →
        (∀ i, (l i).punctuator? = some (t, cs.length)) →
        Scans z dirty (same g :: ps) fun i ↦ (l i).scanPunctuator := by
      intro t cs rs hcs hsplit ht hpunct
      simp only [Lexer.scanPunctuator, hpunct]
      rw [hsplit] at h ⊢
      exact scans_mark h hcs himplicit ht
    have hlength : p.1.length = gs.length := by
      rw [(punctuators_short p hmem).2.1, ← hcodes, List.length_map]
    by_cases hplain : p.2.isPlain
    · refine hscans hgs hps (.inr ⟨p.1, hmem, hcodes⟩) fun i ↦ ?_
      rw [punctuator?_plain (hfind i) hplain, hlength]
    obtain ⟨s, t⟩ := p
    cases t <;> first | exact absurd rfl hplain | skip
    case period =>
      obtain rfl := hperiod rfl
      have hpunct : ∀ i, (l i).punctuator?
          = if [46, 46].isPrefixOf (codes i (same g :: ps)) then some (.illegal, 2)
            else some (.period, 1) := by
        intro i
        simp only [Lexer.punctuator?, hfind i]
        rw [(h.stands i).rest, List.map_take, List.take_take, Nat.min_eq_left (by decide),
          @take_beq [46, 46] _ 2 rfl]
        rfl
      rcases exists_isPrefixOf h.valid (show ∀ c ∈ [46, 46].tail, c ∉ stopCodes by decide)
          (.inl rfl) with hno | ⟨hyes, cs, rs, hsplit, hcs⟩
      · refine hscans hgs hps (.inr ⟨_, hmem, hcodes⟩) fun i ↦ ?_
        rw [hpunct, hno, ← hlength]
        rfl
      · refine @hscans .illegal cs rs ?_ hsplit (.inl rfl) fun i ↦ ?_
        · rintro rfl
          simp at hcs
        · have hlen := congrArg List.length hcs
          rw [List.length_map] at hlen
          rw [hpunct, hyes, hlen]
          rfl
    case arrow =>
      obtain rfl := harrow rfl
      have hpunct : ∀ i, (l i).punctuator? = some (if implicit then .illegal else .arrow, 2) := by
        intro i
        simp only [Lexer.punctuator?, hfind i, himplicit]
      refine hscans hgs hps ?_ fun i ↦ by rw [hpunct, ← hlength]; rfl
      cases implicit with
      | true => exact .inl rfl
      | false => exact .inr ⟨_, hmem, hcodes⟩
    case questionDot =>
      obtain rfl := hquestion rfl
      obtain ⟨c, d, rfl⟩ : ∃ c d, gs = [c, d] := List.length_eq_two.1 hlength.symm
      have hdigit := head?_pieces (z.valid.of_suffix h.suffix |>.of_suffix
        (hps ▸ List.suffix_append _ _ : qs <:+ same g :: ps)) (p := isAsciiDigit)
        fun g hg ↦ forall_stop (p := fun c ↦ isAsciiDigit c = false) (by decide) hg
      have hpunct : ∀ i, (l i).punctuator?
          = if (same? qs).any (fun g ↦ isAsciiDigit g.code) then some (.question, 1)
            else some (.questionDot, 2) := by
        intro i
        have hcodes : ((((l i).reader.rest.take 4).map (·.code)).drop 2).head?.any isAsciiDigit
            = (same? qs).any fun g ↦ isAsciiDigit g.code := by
          rw [← hdigit i, (h.stands i).rest, hps, scalars_append]
          cases scalars i qs <;> simp
        simp only [Lexer.punctuator?, hfind i, hcodes]
      cases hnext : (same? qs).any fun g ↦ isAsciiDigit g.code with
      | true =>
        refine @hscans .question [c] (same d :: qs) (by simp) hps (.inr ⟨"?", by decide, ?_⟩)
          fun i ↦ by rw [hpunct, hnext]; rfl
        simp only [List.map_cons, codesOf] at hcodes ⊢
        exact congrArg (fun cs ↦ cs.take 1) hcodes
      | false =>
        exact hscans hgs hps (.inr ⟨_, hmem, hcodes⟩) fun i ↦ by rw [hpunct, hnext]; rfl

/-! ### All tokens -/

/-- **One token.** From a place that both lexers stand at, both read the same token and come to one
place; without an error, the token is joined to where they stood. -/
theorem exists_scan {l : Side → Lexer} (h : Paces z dirty ps fun i ↦ (l i).reader) {insert : Bool}
    (hinsert : ∀ i, (l i).insertSemicolon = insert) (reserved : Reserved) :
    ∃ dirty' t qs rs ts insert' implicit',
      Scan z dirty qs (fun i ↦ (l i).scan reserved) dirty' t rs ts insert' implicit' ∧ qs <:+ ps ∧
      (dirty' = false → qs ≠ [] → ps ≠ z.pieces → Joined z ps qs) := by
  obtain ⟨d, qs, insert', implicit', hd, hqs, hgap, hpaces, hinsert', himplicit, hjoined⟩ :=
    exists_skipTrivia h hinsert
  have hlift : ∀ {y : Side → Lexeme × Lexer}, (∀ i, (l i).scan reserved = y i) →
      Scans z d qs y → ∃ dirty' t qs rs ts insert' implicit',
      Scan z dirty qs (fun i ↦ (l i).scan reserved) dirty' t rs ts insert' implicit' ∧ qs <:+ ps ∧
      (dirty' = false → qs ≠ [] → ps ≠ z.pieces → Joined z ps qs) := by
    rintro y hy ⟨dirty', t, rs, ts, insert', implicit', hscan⟩
    simp only [hy]
    refine ⟨dirty', t, qs, rs, ts, insert', implicit', { hscan with mono := fun h ↦ hscan.mono (hd h) },
      hqs, fun hclean ↦ hjoined ?_⟩
    cases d with
    | false => rfl
    | true => exact absurd (hscan.mono rfl) (by simp [hclean])
  match qs, hgap with
  | [], _ =>
    have hscan : ∀ i, (l i).scan reserved
        = (Lexer.lexeme .endOfInput (l i).skipTrivia.reader (l i).skipTrivia.reader,
          ⟨(l i).skipTrivia.reader, false, implicit' || insert'⟩) := by
      intro i
      have hrest : (l i).skipTrivia.reader.rest = [] := (hpaces.stands i).rest
      simp only [Lexer.scan, hrest, himplicit, hinsert']
    refine hlift hscan ⟨d, .endOfInput, [], [], false, _, id, ?_, hpaces, fun _ ↦ rfl, fun _ ↦ rfl,
      List.suffix_rfl, joined_refl _, .inr (.inr rfl)⟩
    exact lexes_of_stands hpaces.stands hpaces.suffix rfl (fun _ ↦ rfl) (fun _ ↦ rfl) (fun _ ↦ rfl)
      (.endOfInput (fun _ ↦ rfl) fun _ ↦ raw_lexeme_self _ _)
  | same g :: rest, _ =>
    have hrest : ∀ i, (l i).skipTrivia.reader.rest = g.scalar :: scalars i rest := fun i ↦
      (hpaces.stands i).rest
    have hdigit := head?_pieces hpaces.valid.2 (p := isAsciiDigit)
      fun g hg ↦ forall_stop (p := fun c ↦ isAsciiDigit c = false) (by decide) hg
    have hscan : ∀ i, (l i).scan reserved
        = if isIdentifierStart g.code then (l i).skipTrivia.scanWord reserved
          else if isAsciiDigit g.code then (l i).skipTrivia.scanNumber
          else if g.code == 46 && (same? rest).any (fun g ↦ isAsciiDigit g.code) then
            (l i).skipTrivia.scanNumber
          else if g.code == 34 || g.code == 39 then (l i).skipTrivia.scanString g.code
          else if g.code == 35 then (l i).skipTrivia.scanPrivateName
          else (l i).skipTrivia.scanPunctuator := by
      intro i
      simp only [Lexer.scan, hrest, hdigit]
      rfl
    refine hlift hscan ?_
    split
    case isTrue hg => exact scans_word hpaces hg hinsert' himplicit reserved
    split
    case isTrue hg => exact scans_number hpaces (.inl hg) himplicit
    split
    case isTrue hg =>
      simp only [Bool.and_eq_true, beq_iff_eq] at hg
      exact scans_number hpaces (.inr hg.1) himplicit
    split
    case isTrue hg => exact scans_string hpaces (by simpa using hg) himplicit
    split
    case isTrue hg => exact scans_privateName hpaces (by simpa using hg) himplicit
    exact scans_punctuator hpaces himplicit

end ColonGap.Script
