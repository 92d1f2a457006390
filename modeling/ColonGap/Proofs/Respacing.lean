import ColonGap.Proofs.Characters
import ColonGap.Script.Reader
import ColonGap.Text.Blank

/-!
# Two texts that differ in blanks

A `Respacing` is a pair of texts, the old and the new one, cut into pieces: a character that both
have, or a gap, where each of them has blanks of its own, or none. It is what fixing the gaps
before colons does to a source, seen from both ends at once.

## Shape decisions

* **One list of pieces.** A place is a suffix of that list, so it is a place in both texts, and
  places are compared as suffixes instead of through a table of shifted offsets.
* **Sides.** What holds on both sides is stated for every `Side`. A pair of readers, states or
  trees is a function of the side, and what the two have in common is a value that does not
  depend on it.
* **A gap is harmless wherever it is met.** Reading does not always follow the tokens of the
  script: after an error, and where a head is read twice, it may go through a gap from inside a
  string or a comment. So the conditions on a gap speak of the characters around it only: no
  slash, star, backslash or line break stands before it, and a colon or a slash stands behind it.
-/

namespace ColonGap

/-- Which of two texts. -/
inductive Side where
  | old
  | new
deriving DecidableEq, Repr

namespace Glyph

/-- A blank that does not end the line. -/
def isFiller (g : Glyph) : Bool :=
  isBlank g.code && !isLineBreak g.code

/-- What may be met where a gap starts: a filler, a colon or a slash. -/
def isStop (g : Glyph) : Bool :=
  g.isFiller || g.code == 58 || g.code == 47

end Glyph

/-- A piece of two texts. -/
inductive Piece where
  /-- A character of both. -/
  | same (g : Glyph)
  /-- The blanks that each of them has at a gap. -/
  | gap (blanks : Side → List Glyph)

namespace Piece

/-- The characters of one text. -/
def glyphs (i : Side) : List Piece → List Glyph
  | [] => []
  | same g :: ps => g :: glyphs i ps
  | gap blanks :: ps => blanks i ++ glyphs i ps

/-- The characters of one text without their bytes. -/
def scalars (i : Side) (ps : List Piece) : List Scalar :=
  (glyphs i ps).map Glyph.scalar

/-- The bytes of one text. -/
def text (i : Side) (ps : List Piece) : Bytes :=
  (glyphs i ps).flatMap Glyph.bytes

variable {i : Side} {g : Glyph} {blanks : Side → List Glyph} {ps qs : List Piece}

@[simp] theorem glyphs_nil : glyphs i [] = [] := rfl

@[simp] theorem glyphs_same : glyphs i (same g :: ps) = g :: glyphs i ps := rfl

@[simp] theorem glyphs_gap : glyphs i (gap blanks :: ps) = blanks i ++ glyphs i ps := rfl

/-- Pieces that follow each other have characters that follow each other, on either side. -/
@[simp] theorem glyphs_append : glyphs i (ps ++ qs) = glyphs i ps ++ glyphs i qs := by
  induction ps with
  | nil => rfl
  | cons p ps ih => cases p <;> simp [ih]

@[simp] theorem scalars_nil : scalars i [] = [] := rfl

@[simp] theorem scalars_same : scalars i (same g :: ps) = g.scalar :: scalars i ps := rfl

/-- A gap has its own characters on each side. -/
@[simp] theorem scalars_gap :
    scalars i (gap blanks :: ps) = (blanks i).map Glyph.scalar ++ scalars i ps := by
  simp [scalars]

/-- The characters of pieces may be read in two parts. -/
@[simp] theorem scalars_append : scalars i (ps ++ qs) = scalars i ps ++ scalars i qs := by
  simp [scalars]

/-- On one side there are as many scalars as characters. -/
@[simp] theorem length_scalars : (scalars i ps).length = (glyphs i ps).length := by
  simp [scalars]

@[simp] theorem text_nil : text i [] = [] := rfl

@[simp] theorem text_same : text i (same g :: ps) = g.bytes ++ text i ps := rfl

/-- Pieces that follow each other have texts that follow each other, on either side. -/
@[simp] theorem text_append : text i (ps ++ qs) = text i ps ++ text i qs := by
  simp [text]

/-- Single characters are the same on both sides. -/
@[simp] theorem glyphs_map_same (gs : List Glyph) : glyphs i (gs.map same) = gs := by
  induction gs with
  | nil => rfl
  | cons g gs ih => simp [ih]

/-- Single characters have their bytes for a text on both sides. -/
@[simp] theorem text_map_same (gs : List Glyph) :
    text i (gs.map same) = gs.flatMap Glyph.bytes := by
  simp [text]

/-- A gap has its own text on each side. -/
@[simp] theorem text_gap :
    text i (gap blanks :: ps) = (blanks i).flatMap Glyph.bytes ++ text i ps := by
  simp [text]

/-- A gap comes first. -/
def startsGap : List Piece → Bool
  | gap _ :: _ => true
  | _ => false

@[simp] theorem startsGap_nil : startsGap [] = false := rfl

@[simp] theorem startsGap_same : startsGap (same g :: ps) = false := rfl

@[simp] theorem startsGap_gap : startsGap (gap blanks :: ps) = true := rfl

/-- There is no gap among the pieces. -/
def isRigid : List Piece → Bool
  | [] => true
  | same _ :: ps => isRigid ps
  | gap _ :: _ => false

@[simp] theorem isRigid_map_same (gs : List Glyph) : isRigid (gs.map same) = true := by
  induction gs with
  | nil => rfl
  | cons g gs ih => exact ih

/-- The pieces start with characters of both texts, up to a gap or to their end. -/
theorem exists_front (ps : List Piece) :
    ∃ (gs : List Glyph) (qs : List Piece), ps = gs.map same ++ qs ∧
      (qs = [] ∨ startsGap qs = true) := by
  induction ps with
  | nil => exact ⟨[], [], rfl, .inl rfl⟩
  | cons p ps ih =>
    cases p with
    | gap blanks => exact ⟨[], _, rfl, .inr rfl⟩
    | same g =>
      obtain ⟨gs, qs, rfl, hqs⟩ := ih
      exact ⟨g :: gs, qs, rfl, hqs⟩

/-- What stands around the gaps. -/
def Valid : List Piece → Prop
  | [] => True
  | same g :: ps =>
    (startsGap ps = true → g.code ≠ 47 ∧ g.code ≠ 42 ∧ g.code ≠ 92 ∧ isLineBreak g.code = false) ∧
      Valid ps
  | gap blanks :: ps =>
    (∀ i, ∀ g ∈ blanks i, g.isFiller = true) ∧
      (∃ g qs, ps = same g :: qs ∧ (g.code = 58 ∨ g.code = 47)) ∧ Valid ps

/-- Valid pieces end in valid pieces. -/
theorem Valid.of_append {ps qs : List Piece} (h : Valid (ps ++ qs)) : Valid qs := by
  induction ps with
  | nil => exact h
  | cons p ps ih =>
    cases p with
    | same g => exact ih h.2
    | gap blanks => exact ih h.2.2

/-- The end of valid pieces is valid. -/
theorem Valid.of_suffix {ps qs : List Piece} (h : Valid ps) (hqs : qs <:+ ps) : Valid qs := by
  obtain ⟨rs, rfl⟩ := hqs
  exact h.of_append

/-- The first character, if it is the same on both sides. -/
def same? : List Piece → Option Glyph
  | same g :: _ => some g
  | _ => none

/-- Where a gap starts, each side goes on with a stop. -/
theorem Valid.exists_stop (h : Valid ps) (hgap : startsGap ps = true) (i : Side) :
    ∃ g gs, glyphs i ps = g :: gs ∧ g.isStop = true := by
  match ps, h, hgap with
  | gap blanks :: ps, ⟨hfill, ⟨g, qs, hps, hg⟩, _⟩, _ =>
    subst hps
    cases hi : blanks i with
    | nil =>
      refine ⟨g, glyphs i qs, by simp [hi], ?_⟩
      rcases hg with hg | hg <;> simp [Glyph.isStop, hg]
    | cons c cs =>
      refine ⟨c, cs ++ glyphs i (same g :: qs), by simp [hi], ?_⟩
      simp [Glyph.isStop, hfill i c (by simp [hi])]

end Piece

/-- Two texts that differ in the blanks of their gaps. -/
structure Respacing where
  pieces : List Piece
  valid : Piece.Valid pieces
  /-- No text starts with a gap. -/
  startsGap : Piece.startsGap pieces = false
  /-- Each text is read as the characters it is made of. -/
  cut : ∀ i, Utf8.glyphs (Piece.text i pieces) = Piece.glyphs i pieces

namespace Respacing

open Piece

variable (z : Respacing)

/-- The text of a side. -/
def source (i : Side) : Bytes :=
  text i z.pieces

/-- The offset of a place. -/
def offset (i : Side) (ps : List Piece) : Nat :=
  (z.source i).length - (text i ps).length

/-- The offsets `q .old` and `q .new` are those of one place. -/
def At (q : Side → Nat) : Prop :=
  ∃ ps, ps <:+ z.pieces ∧ ∀ i, q i = z.offset i ps

variable {z} {ps qs : List Piece}

/-- What is left of a text is no longer than the text. -/
theorem length_text_le (h : ps <:+ z.pieces) (i : Side) :
    (text i ps).length ≤ (z.source i).length := by
  obtain ⟨rs, hrs⟩ := h
  simp only [source, ← hrs, text_append, List.length_append]
  omega

/-- A place has as much in front of it as is missing behind it. -/
theorem offset_add (h : ps <:+ z.pieces) (i : Side) :
    z.offset i ps + (text i ps).length = (z.source i).length :=
  Nat.sub_add_cancel (length_text_le h i)

/-- A place lies in the text. -/
theorem offset_le (i : Side) : z.offset i ps ≤ (z.source i).length :=
  Nat.sub_le _ _

/-- Behind a place stands its text. -/
theorem drop_offset (h : ps <:+ z.pieces) (i : Side) :
    (z.source i).drop (z.offset i ps) = text i ps := by
  obtain ⟨rs, hrs⟩ := h
  have hsource : z.source i = text i rs ++ text i ps := by rw [source, ← hrs, text_append]
  have hoffset : z.offset i ps = (text i rs).length := by
    rw [offset, hsource, List.length_append, Nat.add_sub_cancel]
  rw [hoffset, hsource, List.drop_left]

/-- A place lies as far behind another as the text between them is long. -/
theorem offset_append {rs : List Piece} (h : rs ++ ps <:+ z.pieces) (i : Side) :
    z.offset i ps = z.offset i (rs ++ ps) + (text i rs).length := by
  have hps : ps <:+ z.pieces := (List.suffix_append rs ps).trans h
  have h1 := offset_add h i
  have h2 := offset_add hps i
  rw [text_append, List.length_append] at h1
  omega

/-- From any place on, the texts are read as the characters they are made of. -/
theorem glyphs_text (h : ps <:+ z.pieces) (i : Side) : Utf8.glyphs (text i ps) = glyphs i ps := by
  obtain ⟨rs, hrs⟩ := h
  refine @Utf8.glyphs_flatMap_of_append (z.source i) (glyphs i rs) _ ?_
  rw [source, z.cut, ← hrs, Piece.glyphs_append]

/-- Places later in the list have larger offsets. -/
theorem offset_le_of_suffix (h : qs <:+ ps) (hps : ps <:+ z.pieces) (i : Side) :
    z.offset i ps ≤ z.offset i qs := by
  obtain ⟨rs, rfl⟩ := h
  rw [offset_append hps]
  omega

end Respacing

end ColonGap
