import ColonGap.Proofs.Respacing

/-!
# Readers side by side

Two readers keep pace if they stand at the same place of a `Respacing`, each in its own text, and
either both have met an error or neither has. Moving both past the same pieces keeps the pace
(`Paces.advance`), although they may take a different number of steps in a gap.

That errors are met together is the point to watch. A malformed character is an error at the
moment it becomes current, so the question is what becomes current, and in front of a gap that
differs between the sides; but it is a blank, a colon or a slash on either side, and none of them
is malformed.
-/

namespace ColonGap

namespace Glyph

/-- No stop is the replacement character. -/
theorem isStop_replacement {g : Glyph} (h : g.isStop = true) : g.code ≠ Scalar.replacement := by
  intro hcode
  rw [isStop, isFiller, hcode] at h
  exact absurd h (by decide)

/-- No stop is malformed. -/
theorem not_isMalformed_of_isStop {g : Glyph} (h : g.isStop = true) :
    g.scalar.isMalformed = false := by
  simp [Scalar.isMalformed, isStop_replacement h]

theorem isStop_of_isFiller {g : Glyph} (h : g.isFiller = true) : g.isStop = true := by
  simp [isStop, h]

/-- A filler is a blank. -/
theorem isBlank_of_isFiller {g : Glyph} (h : g.isFiller = true) : isBlank g.code = true := by
  simp only [isFiller, Bool.and_eq_true] at h
  exact h.1

/-- A filler ends no line. -/
theorem not_isLineBreak_of_isFiller {g : Glyph} (h : g.isFiller = true) :
    isLineBreak g.code = false := by
  simp only [isFiller, Bool.and_eq_true, Bool.not_eq_true'] at h
  exact h.2

end Glyph

namespace Script

open Piece

namespace Reader

/-! ### Notes -/

variable (r : Reader) (offset : Nat) (cause : Cause)

@[simp] theorem note_offset : (r.note offset cause).offset = r.offset := by
  rw [note]
  split <;> rfl

@[simp] theorem note_rest : (r.note offset cause).rest = r.rest := by
  rw [note]
  split <;> rfl

@[simp] theorem note_tail : (r.note offset cause).tail = r.tail := by
  rw [note]
  split <;> rfl

@[simp] theorem isSome_error_note : (r.note offset cause).error.isSome = true := by
  rw [note]
  split
  case h_1 h => simp [h]
  case h_2 => rfl

/-- Moving some steps and then others is moving all of them. -/
theorem advance_add (m n : Nat) (r : Reader) : r.advance (m + n) = (r.advance m).advance n := by
  induction m generalizing r with
  | zero => rw [Nat.zero_add, advance]
  | succ m ih => rw [Nat.add_right_comm, advance, ih, advance]

end Reader

/-- The reader of a side stands at a place. -/
structure Stands (z : Respacing) (i : Side) (ps : List Piece) (r : Reader) : Prop where
  rest : r.rest = scalars i ps
  tail : r.tail = text i ps
  offset : r.offset = z.offset i ps

/-- Two readers stand at a place, and `dirty` tells whether they have met an error. -/
structure Paces (z : Respacing) (dirty : Bool) (ps : List Piece) (r : Side → Reader) : Prop where
  suffix : ps <:+ z.pieces
  stands : ∀ i, Stands z i ps (r i)
  error : ∀ i, (r i).error.isSome = dirty

variable {z : Respacing} {dirty : Bool} {ps : List Piece} {r : Side → Reader}

/-- A note leaves a reader where it stands. -/
theorem Stands.note {i : Side} {r : Reader} (h : Stands z i ps r) (offset : Nat) (cause : Cause) :
    Stands z i ps (r.note offset cause) :=
  ⟨by simp [h.rest], by simp [h.tail], by simp [h.offset]⟩

/-- The first character of both sides is malformed. -/
def headMalformed : List Piece → Bool
  | same g :: _ => g.scalar.isMalformed
  | _ => false

/-- A reader that checks its character stands where it stood, and has met an error if that is
malformed. -/
theorem Stands.check {i : Side} {r : Reader} (hvalid : Valid ps) (h : Stands z i ps r) :
    Stands z i ps r.check ∧ r.check.error.isSome = (r.error.isSome || headMalformed ps) := by
  rw [Reader.check, h.rest]
  match ps, hvalid with
  | [], _ => exact ⟨h, by simp [headMalformed]⟩
  | same g :: ps, _ =>
    simp only [scalars_same, headMalformed]
    split
    case isTrue hbad => exact ⟨h.note _ _, by simp [hbad]⟩
    case isFalse hgood => exact ⟨h, by simp [hgood]⟩
  | gap blanks :: ps, hvalid =>
    -- What is current in front of a gap is not malformed.
    obtain ⟨g, gs, hgs, hstop⟩ := hvalid.exists_stop rfl i
    rw [scalars, hgs, List.map_cons]
    simp only [Glyph.not_isMalformed_of_isStop hstop, headMalformed]
    exact ⟨h, by simp⟩

namespace Paces

theorem valid (h : Paces z dirty ps r) : Valid ps :=
  z.valid.of_suffix h.suffix

/-- Readers that both note an error keep pace. -/
theorem note (h : Paces z dirty ps r) (offset : Side → Nat) (cause : Side → Cause) :
    Paces z true ps fun i ↦ (r i).note (offset i) (cause i) :=
  ⟨h.suffix, fun i ↦ (h.stands i).note _ _, fun i ↦ by simp⟩

/-- Both readers move past a character that both texts have. -/
theorem step {g : Glyph} (h : Paces z dirty (same g :: ps) r) :
    Paces z (dirty || headMalformed ps) ps fun i ↦ (r i).step := by
  have hps : ps <:+ z.pieces := (List.suffix_cons _ ps).trans h.suffix
  have hvalid := z.valid.of_suffix hps
  have hstep : ∀ i, Stands z i ps (r i).step ∧
      (r i).step.error.isSome = ((r i).error.isSome || headMalformed ps) := fun i ↦ by
    obtain ⟨hrest, htail, hoffset⟩ := h.stands i
    rw [Reader.step, hrest, scalars_same]
    refine Stands.check hvalid ⟨rfl, ?_, ?_⟩
    · simp [htail, Glyph.width]
    · have := @Respacing.offset_append z ps [same g] h.suffix i
      simp only [List.singleton_append] at this
      simp [hoffset, this, Glyph.width]
  exact ⟨hps, fun i ↦ (hstep i).1, fun i ↦ by rw [(hstep i).2, h.error i]⟩

/-- A reader moves past fillers in front of a character that is not malformed. -/
theorem advance_blanks {i : Side} {g : Glyph} {r : Reader} {blanks : List Glyph}
    (hg : g.scalar.isMalformed = false) (hblanks : ∀ g ∈ blanks, g.isFiller = true)
    (hrest : r.rest = blanks.map Glyph.scalar ++ scalars i (same g :: ps))
    (htail : r.tail = blanks.flatMap Glyph.bytes ++ text i (same g :: ps))
    (hoffset : r.offset + (blanks.flatMap Glyph.bytes).length = z.offset i (same g :: ps)) :
    Stands z i (same g :: ps) (r.advance blanks.length) ∧
      (r.advance blanks.length).error = r.error := by
  induction blanks generalizing r with
  | nil =>
    refine ⟨⟨?_, ?_, ?_⟩, rfl⟩
    · simpa [Reader.advance] using hrest
    · simpa [Reader.advance] using htail
    · simpa [Reader.advance] using hoffset
  | cons b bs ih =>
    have hstep : r.step = { r with
        offset := r.offset + b.width, rest := bs.map Glyph.scalar ++ scalars i (same g :: ps)
        tail := r.tail.drop b.width } := by
      rw [Reader.step, hrest, List.map_cons, List.cons_append]
      simp only [Reader.check]
      match bs, hblanks with
      | c :: bs, hblanks =>
        have hc := Glyph.not_isMalformed_of_isStop (Glyph.isStop_of_isFiller (hblanks c (by simp)))
        simp [hc]
      | [], _ => simp [hg]
    simp only [List.flatMap_cons, List.length_append] at hoffset htail
    have hnext := ih (r := r.step) (fun g hg ↦ hblanks g (by simp [hg])) (by rw [hstep])
      (by rw [hstep, htail]; simp [Glyph.width])
      (by rw [hstep]; simp only [Glyph.width]; omega)
    rw [List.length_cons, Reader.advance]
    exact ⟨hnext.1, by rw [hnext.2, hstep]⟩

/-- Each reader moves past its own blanks. -/
theorem advance_gap {blanks : Side → List Glyph} (h : Paces z dirty (gap blanks :: ps) r) :
    Paces z dirty ps fun i ↦ (r i).advance (blanks i).length := by
  have hps : ps <:+ z.pieces := (List.suffix_cons _ ps).trans h.suffix
  obtain ⟨hfill, ⟨g, qs, rfl, hg⟩, hvalid⟩ := h.valid
  have hgood : g.scalar.isMalformed = false := by
    refine Glyph.not_isMalformed_of_isStop ?_
    rcases hg with hg | hg <;> simp [Glyph.isStop, hg]
  have hadvance : ∀ i, Stands z i (same g :: qs) ((r i).advance (blanks i).length) ∧
      ((r i).advance (blanks i).length).error = (r i).error := fun i ↦ by
    obtain ⟨hrest, htail, hoffset⟩ := h.stands i
    refine advance_blanks hgood (hfill i) ?_ ?_ ?_
    · rw [hrest, scalars_gap]
    · rw [htail, text, glyphs_gap, List.flatMap_append]
      rfl
    · have hadd := @Respacing.offset_append z _ [gap blanks] h.suffix i
      simp only [List.singleton_append, text, glyphs_gap, Piece.glyphs_nil, List.append_nil] at hadd
      rw [hoffset, hadd]
  exact ⟨hps, fun i ↦ (hadvance i).1, fun i ↦ by rw [(hadvance i).2, h.error i]⟩

/-- **Keeping pace.** Both readers move past some pieces. Errors may be met on the way. -/
theorem advance {qs : List Piece} (h : Paces z dirty (qs ++ ps) r) :
    ∃ dirty', (dirty = true → dirty' = true) ∧
      Paces z dirty' ps fun i ↦ (r i).advance (glyphs i qs).length := by
  induction qs generalizing dirty r with
  | nil => exact ⟨dirty, id, h⟩
  | cons q qs ih =>
    cases q with
    | same g =>
      obtain ⟨dirty', hle, hnext⟩ := ih (h.step (g := g))
      refine ⟨dirty', fun hd ↦ hle (by simp [hd]), ?_⟩
      simpa only [glyphs_same, List.length_cons, Reader.advance] using hnext
    | gap blanks =>
      obtain ⟨dirty', hle, hnext⟩ := ih h.advance_gap
      refine ⟨dirty', hle, ?_⟩
      simpa only [glyphs_gap, List.length_append, Reader.advance_add] using hnext

end Paces

/-! ### Measures that end at one place -/

/-- The last pieces are characters with the given codes. -/
def Closes (codes : List Nat) (qs : List Piece) : Prop :=
  ∃ (qs' : List Piece) (gs : List Glyph), qs = qs' ++ gs.map same ∧ gs.map Glyph.code = codes

theorem closes_nil (qs : List Piece) : Closes [] qs :=
  ⟨qs, [], by simp, rfl⟩

/-- What closes in front of some pieces closes in front of one more. -/
theorem Closes.cons {codes : List Nat} {qs : List Piece} (h : Closes codes qs) (p : Piece) :
    Closes codes (p :: qs) := by
  obtain ⟨qs', gs, rfl, hgs⟩ := h
  exact ⟨p :: qs', gs, rfl, hgs⟩

/-- A measure gives a number of characters and something else. It is *even* on some pieces if it
ends at the same place of both texts, which satisfies `P`, and gives the same otherwise. The
result says which `marks` it ends with. -/
def Even {β : Type} (P : List Piece → Prop) (marks : β → List Nat) (f : List Scalar → Nat × β)
    (ps : List Piece) : Prop :=
  ∃ qs rs b, ps = qs ++ rs ∧ Closes (marks b) qs ∧ P rs ∧
    ∀ i, f (scalars i ps) = ((glyphs i qs).length, b)

namespace Even

variable {β : Type} {P : List Piece → Prop} {marks : β → List Nat} {f f' : List Scalar → Nat × β}

/-- A measure that ends where one condition holds ends where a weaker one does. -/
theorem mono {P' : List Piece → Prop} (h : Even P marks f ps) (hP : ∀ rs, P rs → P' rs) :
    Even P' marks f ps := by
  obtain ⟨qs, rs, b, hps, hb, hrs, hmeasure⟩ := h
  exact ⟨qs, rs, b, hps, hb, hP rs hrs, hmeasure⟩

theorem stop {b : β} (hP : P ps) (hb : marks b = []) (h : ∀ i, f (scalars i ps) = (0, b)) :
    Even P marks f ps :=
  ⟨[], ps, b, rfl, hb ▸ closes_nil [], hP, h⟩

/-- A measure may move on by a character that stands on both sides. -/
theorem same {g : Glyph} (h : Even P marks f' ps)
    (hf : ∀ i, f (g.scalar :: scalars i ps)
      = ((f' (scalars i ps)).1 + 1, (f' (scalars i ps)).2)) : Even P marks f (same g :: ps) := by
  obtain ⟨qs, rs, b, rfl, hb, hP, hmeasure⟩ := h
  refine ⟨Piece.same g :: qs, rs, b, rfl, hb.cons _, hP, fun i ↦ ?_⟩
  rw [scalars_same, hf, hmeasure]
  rfl

/-- A measure may end behind one character. -/
theorem one {g : Glyph} {b : β} (hP : P ps) (hb : marks b = [] ∨ marks b = [g.code])
    (hf : ∀ i, f (g.scalar :: scalars i ps) = (1, b)) : Even P marks f (Piece.same g :: ps) := by
  refine ⟨[Piece.same g], ps, b, rfl, ?_, hP, hf⟩
  rcases hb with hb | hb <;> rw [hb]
  · exact closes_nil _
  · exact ⟨[], [g], rfl, rfl⟩

/-- A measure may end behind two characters. -/
theorem two {g h : Glyph} {b : β} (hP : P ps) (hb : marks b = [] ∨ marks b = [g.code, h.code])
    (hf : ∀ i, f (g.scalar :: h.scalar :: scalars i ps) = (2, b)) :
    Even P marks f (Piece.same g :: Piece.same h :: ps) := by
  refine ⟨[Piece.same g, Piece.same h], ps, b, rfl, ?_, hP, hf⟩
  rcases hb with hb | hb <;> rw [hb]
  · exact closes_nil _
  · exact ⟨[], [g, h], rfl, rfl⟩

/-- A measure may move on by all the blanks of a gap. -/
theorem gap {blanks : Side → List Glyph} (h : Even P marks f' ps)
    (hf : ∀ i, f ((blanks i).map Glyph.scalar ++ scalars i ps)
      = ((blanks i).length + (f' (scalars i ps)).1, (f' (scalars i ps)).2)) :
    Even P marks f (gap blanks :: ps) := by
  obtain ⟨qs, rs, b, rfl, hb, hP, hmeasure⟩ := h
  refine ⟨Piece.gap blanks :: qs, rs, b, rfl, hb.cons _, hP, fun i ↦ ?_⟩
  rw [scalars_gap, hf, hmeasure]
  simp

end Even

end Script

end ColonGap
