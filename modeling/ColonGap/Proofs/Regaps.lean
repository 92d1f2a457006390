import ColonGap.Proofs.Blanks
import ColonGap.Proofs.Scripts

/-!
# A text and its patch, side by side

Replacements of gaps make a `Respacing` out of a text: the old side is the text, and the new side
is the patched one (`Respacing.ofPatch`).

The same gap may be reported more than once, and then all reports but the first are skipped. That
makes no difference to the text, so `Fix.apply_of_agree` asks only that any two replacements are
equal or lie apart, and says that the text is patched with each of them once.

So a script in which gaps are replaced is read as it was read before (`Fix.parse_apply`). Where no
gap lies within a token, the two scripts are alike. The script has to be tame (`TameSource`), which
every script is that has no `...` or is made of ASCII characters without backslashes.
-/

namespace ColonGap

namespace Fix

/-! ### Replacements that agree -/

/-- `r` ends before `s` starts, and something stands between them. -/
def Ahead (r s : Replacement) : Prop :=
  r.stop < s.start

/-- Two replacements are equal, or they lie apart. -/
def Agree (r s : Replacement) : Prop :=
  r = s ∨ Ahead r s ∨ Ahead s r

theorem conflicts_self {r : Replacement} (h : r.start ≤ r.stop) : conflicts r r = true := by
  rw [conflicts_eq_true_iff]
  omega

theorem Ahead.not_clash {r s : Replacement} (h : Ahead r s) (hr : r.start ≤ r.stop) :
    ¬ Clash r s := fun hclash ↦
  Before.not_conflicts ⟨lt_of_le_of_lt hr h, le_of_lt h⟩ (conflicts_of_clash hclash)

/-- **Fixes that agree** are put in once each. -/
theorem apply_of_agree {source : Bytes} {failures : List Failure}
    (hin : ∀ r ∈ failures.filterMap (·.fix), inRange source.length r = true)
    (hagree : ∀ r ∈ failures.filterMap (·.fix), ∀ s ∈ failures.filterMap (·.fix), Agree r s) :
    ∃ rs : List Replacement, rs.Pairwise Ahead ∧
      (∀ r, r ∈ rs ↔ r ∈ failures.filterMap (·.fix)) ∧
      (apply source failures).output = patch source 0 rs ∧
      ((apply source failures).applied = [] ↔ rs = []) := by
  have hmem : ∀ {r}, r ∈ applied source failures → r ∈ failures.filterMap (·.fix) := fun hr ↦
    (map_snd_ordered_perm hin).mem_iff.1 (mem_ordered_of_mem_applied hr)
  have hle : ∀ {r}, r ∈ failures.filterMap (·.fix) → r.start ≤ r.stop := fun hr ↦
    (inRange_iff.1 (hin _ hr)).2.1
  refine ⟨applied source failures, ?_, fun r ↦ ⟨hmem, fun hr ↦ ?_⟩, output_apply source failures,
    ?_⟩
  · -- Of two that are chosen, the second is neither the first again nor ahead of it.
    refine (pairwise_applied source failures).imp_of_mem fun {r s} hr hs hfree ↦ ?_
    have hrle := hle (hmem hr)
    have hsle := hle (hmem hs)
    rcases hagree r (hmem hr) s (hmem hs) with rfl | hahead | hahead
    · exact absurd (conflicts_self hrle) hfree
    · exact hahead
    · rw [conflicts_eq_true_iff] at hfree
      simp only [Ahead] at hahead
      omega
  · -- One that is not chosen clashes with one that is, so it is that one.
    rcases mem_applied_or_clash ((map_snd_ordered_perm hin).mem_iff.2 hr) with hin | ⟨s, hs, hclash⟩
    · exact hin
    · rcases hagree s (hmem hs) r hr with rfl | hahead | hahead
      · exact hs
      · exact absurd hclash (hahead.not_clash (hle (hmem hs)))
      · exact absurd hclash.symm (hahead.not_clash (hle hr))
  · rw [← List.map_eq_nil_iff, map_fix_applied, List.map_eq_nil_iff]

/-! ### Replacements of gaps -/

/-- A replacement of a gap: a character that may stand before a gap stands before it, and a colon
or a slash behind it. -/
structure Regaps (source : Bytes) (r : Replacement) : Prop extends Harmless source r where
  before : ∃ xs g, Utf8.glyphs (source.take r.start.toNat) = xs ++ [g] ∧ mayPrecede g.code = true
  behind : ∃ c rest, source.drop r.stop.toNat = c :: rest ∧ (c = 58 ∨ c = 47)

/-- The pieces of a text from an offset on, with a gap for each replacement. -/
def piecesFrom (source : Bytes) (done : Nat) : List Replacement → List Piece
  | [] => (Utf8.glyphs (source.drop done)).map .same
  | r :: rs =>
    (Utf8.glyphs (source.slice done r.start.toNat)).map .same ++
      .gap (fun
        | .old => Utf8.glyphs (source.slice r.start.toNat r.stop.toNat)
        | .new => Utf8.glyphs r.text) :: piecesFrom source r.stop.toNat rs

open Piece

variable {source : Bytes} {done : Nat} {rs : List Replacement}

/-- Replacements of gaps that follow one another, behind an offset. -/
structure Sets (source : Bytes) (done : Nat) (rs : List Replacement) : Prop where
  regaps : ∀ r ∈ rs, Regaps source r
  ahead : rs.Pairwise Ahead
  behind : ∀ r ∈ rs, (done : Int) < r.start

/-- What follows the first replacement is set behind it. -/
theorem Sets.tail {r : Replacement} (h : Sets source done (r :: rs)) :
    Sets source r.stop.toNat rs := by
  obtain ⟨hr, hrs⟩ := List.pairwise_cons.1 h.ahead
  refine ⟨fun s hs ↦ h.regaps s (List.mem_cons_of_mem _ hs), hrs, fun s hs ↦ ?_⟩
  have hahead : r.stop < s.start := hr s hs
  have hr := h.regaps r List.mem_cons_self
  have hnonneg := hr.nonneg
  have hle := hr.le
  omega

/-- The first character of a patched text is that of the text. -/
theorem Sets.head_patch (h : Sets source done rs) {c : UInt8} {rest : Bytes}
    (hdrop : source.drop done = c :: rest) : ∃ more, patch source done rs = c :: more := by
  cases rs with
  | nil => exact ⟨rest, hdrop⟩
  | cons r rs =>
    have hlt := h.behind r List.mem_cons_self
    obtain ⟨n, hn⟩ : ∃ n, r.start.toNat - done = n + 1 := ⟨r.start.toNat - done - 1, by omega⟩
    rw [patch, Bytes.slice, hdrop, hn]
    exact ⟨_, rfl⟩

/-- A gap is followed by a colon or a slash. -/
theorem Sets.head_pieces (h : Sets source done rs) {c : UInt8} {rest : Bytes}
    (hdrop : source.drop done = c :: rest) (hc : c < 0x80) :
    ∃ g qs, piecesFrom source done rs = same g :: qs ∧ g.code = c.toNat := by
  cases rs with
  | nil =>
    rw [piecesFrom, hdrop, Utf8.glyphs_cons_of_lt hc]
    exact ⟨_, _, rfl, rfl⟩
  | cons r rs =>
    have hlt := h.behind r List.mem_cons_self
    obtain ⟨n, hn⟩ : ∃ n, r.start.toNat - done = n + 1 := ⟨r.start.toNat - done - 1, by omega⟩
    rw [piecesFrom, Bytes.slice, hdrop, hn, List.take_succ_cons, Utf8.glyphs_cons_of_lt hc]
    exact ⟨_, _, rfl, rfl⟩

theorem Regaps.exists_behind {r : Replacement} (h : Regaps source r) :
    ∃ c rest, source.drop r.stop.toNat = c :: rest ∧ c < 0x80 ∧ (c = 58 ∨ c = 47) := by
  obtain ⟨c, rest, hdrop, hc⟩ := h.behind
  exact ⟨c, rest, hdrop, by rcases hc with rfl | rfl <;> decide, hc⟩

/-- A gap does not start a text. -/
theorem Regaps.start_pos {r : Replacement} (h : Regaps source r) : (0 : Nat) < r.start := by
  obtain ⟨xs, g, hglyphs, -⟩ := h.before
  by_contra hstart
  rw [show r.start.toNat = 0 by omega] at hglyphs
  simp at hglyphs

/-- A gap does not end a text. -/
theorem Regaps.stop_lt {r : Replacement} (h : Regaps source r) : r.stop.toNat < source.length := by
  obtain ⟨c, rest, hdrop, -⟩ := h.behind
  by_contra hge
  rw [List.drop_of_length_le (by omega)] at hdrop
  cases hdrop

/-- The old side of the pieces is the text, and each side is read as it is cut. -/
theorem Sets.text_old (h : Sets source done rs) :
    text .old (piecesFrom source done rs) = source.drop done ∧
      Utf8.glyphs (source.drop done) = glyphs .old (piecesFrom source done rs) := by
  induction rs generalizing done with
  | nil => simp [piecesFrom, Utf8.flatMap_bytes_glyphs]
  | cons r rs ih =>
    have hr := h.regaps r List.mem_cons_self
    have hlt := h.behind r List.mem_cons_self
    have hle := hr.le
    obtain ⟨htext, hglyphs⟩ := ih h.tail
    have hdone : done ≤ r.start.toNat := by omega
    have hstop : r.start.toNat ≤ r.stop.toNat := by omega
    rw [piecesFrom, text_append, text_map_same, text_gap, Utf8.flatMap_bytes_glyphs,
      Utf8.flatMap_bytes_glyphs, htext, Bytes.slice_append_drop hstop,
      Bytes.slice_append_drop hdone]
    refine ⟨rfl, ?_⟩
    rw [Piece.glyphs_append, glyphs_map_same, glyphs_gap, ← hglyphs, ← Utf8.glyphs_append hr.stops,
      Bytes.slice_append_drop hstop, ← Utf8.glyphs_append hr.starts, Bytes.slice_append_drop hdone]

/-- The new side of the pieces is the patched text, and each side is read as it is cut. -/
theorem Sets.text_new (h : Sets source done rs) :
    text .new (piecesFrom source done rs) = patch source done rs ∧
      Utf8.glyphs (patch source done rs) = glyphs .new (piecesFrom source done rs) := by
  induction rs generalizing done with
  | nil => simp [piecesFrom, patch, Utf8.flatMap_bytes_glyphs]
  | cons r rs ih =>
    have hr := h.regaps r List.mem_cons_self
    obtain ⟨htext, hglyphs⟩ := ih h.tail
    obtain ⟨c, rest, hdrop, hc, -⟩ := hr.exists_behind
    obtain ⟨more, hmore⟩ := h.tail.head_patch hdrop
    have hstarts : Utf8.Starts (patch source r.stop.toNat rs) :=
      hmore ▸ Utf8.starts_cons_of_lt hc more
    obtain ⟨n, hspaces⟩ := hr.text
    have hstarts' := (Utf8.starts_spaces n).append hstarts
    rw [← hspaces] at hstarts'
    rw [piecesFrom, text_append, text_map_same, text_gap, Utf8.flatMap_bytes_glyphs,
      Utf8.flatMap_bytes_glyphs, htext, patch, List.append_assoc]
    refine ⟨rfl, ?_⟩
    rw [Piece.glyphs_append, glyphs_map_same, glyphs_gap, ← hglyphs, Utf8.glyphs_append hstarts',
      Utf8.glyphs_append hstarts]

/-- Where a gap starts, the last character before it is known. -/
theorem Regaps.getLast_slice {r : Replacement} (h : Regaps source r)
    (hcut : done = 0 ∨ Utf8.Starts (source.drop done)) (hlt : (done : Int) < r.start) :
    ∃ xs g, Utf8.glyphs (source.slice done r.start.toNat) = xs ++ [g] ∧
      mayPrecede g.code = true := by
  obtain ⟨xs, g, hxs, hg⟩ := h.before
  have hslice : source.take done ++ source.slice done r.start.toNat = source.take r.start.toNat := by
    have hzero := @Bytes.slice_append_slice source 0 done r.start.toNat (Nat.zero_le _) (by omega)
    simpa [Bytes.slice] using hzero
  have hglyphs : Utf8.glyphs (source.take done) ++ Utf8.glyphs (source.slice done r.start.toNat)
      = xs ++ [g] := by
    rw [← hxs, ← hslice]
    rcases hcut with rfl | hcut
    · simp
    · exact (Utf8.glyphs_append (hcut.slice _)).symm
  rcases List.eq_nil_or_concat (Utf8.glyphs (source.slice done r.start.toNat)) with hnil | ⟨ys, y, hys⟩
  · -- There is something between the offset and the gap.
    have hempty := Utf8.flatMap_bytes_glyphs (source.slice done r.start.toNat)
    have hlen := @Bytes.length_slice source done r.start.toNat (by
      have hle := h.le
      have hstop := h.stop_lt
      omega)
    rw [hnil] at hempty
    rw [← hempty] at hlen
    simp at hlen
    omega
  · rw [List.concat_eq_append] at hys
    rw [hys, ← List.append_assoc] at hglyphs
    obtain ⟨-, hy⟩ := List.append_inj' hglyphs rfl
    exact ⟨ys, y, hys, by rw [List.singleton_inj.1 hy]; exact hg⟩

/-- A filled gap. -/
theorem isFiller_of_solid {s : Bytes} (h : solid s = []) : ∀ g ∈ Utf8.glyphs s, g.isFiller = true := by
  intro g hg
  simpa using List.filter_eq_nil_iff.1 h g hg

/-- Pieces stay valid behind single characters, if no gap follows a character that may not precede
one. -/
theorem valid_append {gs : List Glyph} {ps : List Piece} (hps : Valid ps)
    (hlast : startsGap ps = true → ∃ xs g, gs = xs ++ [g] ∧ mayPrecede g.code = true) :
    Valid (gs.map same ++ ps) := by
  induction gs with
  | nil => exact hps
  | cons g gs ih =>
    cases gs with
    | nil =>
      refine ⟨fun hgap ↦ ?_, hps⟩
      obtain ⟨xs, g', hxs, hg'⟩ := hlast hgap
      obtain rfl : g = g' := by
        cases xs with
        | nil => simpa using hxs
        | cons x xs => simp at hxs
      simpa [mayPrecede, and_assoc, and_comm, and_left_comm] using hg'
    | cons g' gs =>
      refine ⟨fun hgap ↦ absurd hgap Bool.false_ne_true, ih fun hgap ↦ ?_⟩
      obtain ⟨xs, y, hxs, hy⟩ := hlast hgap
      cases xs with
      | nil => simp at hxs
      | cons x xs =>
        obtain ⟨-, hxs⟩ := List.cons.inj hxs
        exact ⟨xs, y, hxs, hy⟩

/-- The pieces of a text with replacements are valid, where the text may be cut. -/
theorem Sets.valid (h : Sets source done rs) (hcut : done = 0 ∨ Utf8.Starts (source.drop done)) :
    Valid (piecesFrom source done rs) := by
  induction rs generalizing done with
  | nil =>
    rw [piecesFrom, ← List.append_nil (List.map _ _)]
    exact valid_append trivial (fun hgap ↦ absurd hgap Bool.false_ne_true)
  | cons r rs ih =>
    have hr := h.regaps r List.mem_cons_self
    have hlt := h.behind r List.mem_cons_self
    obtain ⟨c, rest, hdrop, hc, hcode⟩ := hr.exists_behind
    obtain ⟨g, qs, hpieces, hg⟩ := h.tail.head_pieces hdrop hc
    rw [piecesFrom]
    refine valid_append ⟨fun i ↦ ?_, ⟨g, qs, hpieces, ?_⟩, ih h.tail (.inr hr.stops)⟩ fun _ ↦
      hr.getLast_slice hcut hlt
    · cases i with
      | old => exact isFiller_of_solid hr.blanks
      | new =>
        obtain ⟨n, hn⟩ := hr.text
        refine isFiller_of_solid ?_
        rw [hn, solid_spaces]
    · rcases hcode with rfl | rfl
      · exact .inl hg
      · exact .inr hg

theorem startsGap_map_same (gs : List Glyph) (g : Glyph) (ps : List Piece) :
    startsGap ((gs ++ [g]).map same ++ ps) = false := by
  cases gs <;> rfl

/-- A text does not start with a gap. -/
theorem Sets.startsGap (h : Sets source 0 rs) :
    Piece.startsGap (piecesFrom source 0 rs) = false := by
  cases rs with
  | nil =>
    rw [piecesFrom]
    cases Utf8.glyphs (source.drop 0) <;> rfl
  | cons r rs =>
    have hr := h.regaps r List.mem_cons_self
    obtain ⟨xs, g, hxs, -⟩ := hr.getLast_slice (.inl rfl) (h.behind r List.mem_cons_self)
    rw [piecesFrom, hxs]
    exact startsGap_map_same xs g _

/-- Where a gap starts is not among the single characters in front. -/
theorem suffix_of_map_same {gs : List Glyph} {ps qs : List Piece} (h : ps <:+ gs.map same ++ qs)
    (hgap : Piece.startsGap ps = true) : ps <:+ qs := by
  induction gs with
  | nil => exact h
  | cons g gs ih =>
    rcases List.suffix_cons_iff.1 h with rfl | h
    · cases hgap
    · exact ih h

/-- The old text from a gap on. -/
theorem Sets.text_gap {r : Replacement} (h : Sets source done (r :: rs)) (blanks : List Glyph) :
    text .old (gap (fun
        | .old => Utf8.glyphs (source.slice r.start.toNat r.stop.toNat)
        | .new => blanks) :: piecesFrom source r.stop.toNat rs) = source.drop r.start.toNat := by
  have hle := (h.regaps r List.mem_cons_self).le
  rw [Piece.text_gap, Utf8.flatMap_bytes_glyphs, h.tail.text_old.1,
    Bytes.slice_append_drop (by omega)]

/-- A gap stands where a replacement starts, and its new blanks are those of the replacement. -/
theorem Sets.exists_mem {blanks : Side → List Glyph} {ps : List Piece} (h : Sets source done rs)
    (hgap : gap blanks :: ps <:+ piecesFrom source done rs) :
    ∃ r ∈ rs, blanks .new = Utf8.glyphs r.text ∧
      text .old (gap blanks :: ps) = source.drop r.start.toNat := by
  induction rs generalizing done with
  | nil =>
    rw [piecesFrom, ← List.append_nil (List.map _ _)] at hgap
    cases List.suffix_nil.1 (suffix_of_map_same hgap rfl)
  | cons r rs ih =>
    rcases List.suffix_cons_iff.1 (suffix_of_map_same hgap rfl) with heq | hgap
    · rw [heq]
      obtain ⟨rfl, -⟩ := (List.cons.inj heq).imp_left Piece.gap.inj
      exact ⟨r, List.mem_cons_self, rfl, h.text_gap _⟩
    · obtain ⟨s, hs, hnew, htext⟩ := ih h.tail hgap
      exact ⟨s, List.mem_cons_of_mem _ hs, hnew, htext⟩

/-- There is a gap where a replacement starts. -/
theorem Sets.exists_gap {r : Replacement} (h : Sets source done rs) (hr : r ∈ rs) :
    ∃ ps, ps <:+ piecesFrom source done rs ∧ Piece.startsGap ps = true ∧
      text .old ps = source.drop r.start.toNat := by
  induction rs generalizing done with
  | nil => cases hr
  | cons s rs ih =>
    rcases List.mem_cons.1 hr with rfl | hr
    · exact ⟨_, List.suffix_append _ _, rfl, h.text_gap _⟩
    · obtain ⟨ps, hps, hrest⟩ := ih h.tail hr
      exact ⟨ps, (hps.trans (List.suffix_cons _ _)).trans (List.suffix_append _ _), hrest⟩

end Fix

/-! ### The two texts -/

namespace Respacing

open ColonGap.Fix Piece

variable {source : Bytes} {rs : List Replacement}

/-- A text and its patch. -/
def ofPatch (h : Sets source 0 rs) : Respacing where
  pieces := piecesFrom source 0 rs
  valid := h.valid (.inl rfl)
  startsGap := h.startsGap
  cut i := by
    cases i with
    | old => rw [h.text_old.1, h.text_old.2]
    | new => rw [h.text_new.1, h.text_new.2]

@[simp] theorem source_ofPatch_old (h : Sets source 0 rs) : (ofPatch h).source .old = source :=
  h.text_old.1

@[simp] theorem source_ofPatch_new (h : Sets source 0 rs) :
    (ofPatch h).source .new = patch source 0 rs :=
  h.text_new.1

/-- The offset of a place from which on the old text is known. -/
theorem offset_ofPatch (h : Sets source 0 rs) {r : Replacement} (hr : r ∈ rs) {ps : List Piece}
    (hps : text .old ps = source.drop r.start.toNat) :
    (ofPatch h).offset .old ps = r.start.toNat := by
  have hle := (h.regaps r hr).le
  have hlt := (h.regaps r hr).stop_lt
  rw [offset, source_ofPatch_old, hps, List.length_drop]
  omega

end Respacing

/-! ### Scripts -/

namespace Script

open Piece

/-- A text without three dots in a row is dotless on both sides. -/
theorem dotless_of_source {z : Respacing} (h : ¬ [46, 46, 46] <:+: z.source .old) : Dotless z := by
  rintro gs qs ⟨front, hpieces⟩ hcodes
  obtain ⟨g₁, gs₁, rfl, hg₁, hcodes⟩ := List.map_eq_cons_iff.1 hcodes
  obtain ⟨g₂, gs₂, rfl, hg₂, hcodes⟩ := List.map_eq_cons_iff.1 hcodes
  obtain ⟨g₃, gs₃, rfl, hg₃, hcodes⟩ := List.map_eq_cons_iff.1 hcodes
  obtain rfl := List.map_eq_nil_iff.1 hcodes
  have hsuffix : same g₁ :: same g₂ :: same g₃ :: qs <:+ z.pieces := ⟨front, hpieces⟩
  have hbytes : g₁.bytes = [46] ∧ g₂.bytes = [46] ∧ g₃.bytes = [46] := by
    refine ⟨?_, ?_, ?_⟩
    · rw [bytes_of_code hsuffix (by omega), hg₁]
      rfl
    · rw [bytes_of_code ((List.suffix_cons _ _).trans hsuffix) (by omega), hg₂]
      rfl
    · have hlast := (List.suffix_cons _ _).trans ((List.suffix_cons _ _).trans hsuffix)
      rw [bytes_of_code hlast (by omega), hg₃]
      rfl
  refine h ⟨text .old front, text .old qs, ?_⟩
  rw [Respacing.source, ← hpieces]
  simp [hbytes]

/-- No name is recorded longer than it is written. -/
def NamesFit (source : Bytes) : Prop :=
  ∀ gs rest : List Glyph, gs ++ rest <:+ Utf8.glyphs source →
    ∀ w, Word.measure 0 true ((gs ++ rest).map Glyph.scalar) = w → w.wellFormed = true →
      w.count = gs.length → nameLength w.name ≤ (gs.flatMap Glyph.bytes).length

/-- Names that fit are recorded no longer than they are written. -/
theorem short_of_namesFit {z : Respacing} (h : NamesFit (z.source .old)) : Short z := by
  refine .inr fun gs qs w hsuffix hword hform hcount ↦ ?_
  refine h gs (glyphs .old qs) ?_ w ?_ hform hcount
  · obtain ⟨front, hfront⟩ := hsuffix
    refine ⟨glyphs .old front, ?_⟩
    rw [Respacing.source, z.cut, ← hfront]
    simp
  · rw [← hword .old, scalars]
    simp

/-- Operands behind `...` are recorded within their texts, or there are none. -/
def TameSource (source : Bytes) : Prop :=
  NamesFit source ∨ ¬ [46, 46, 46] <:+: source

theorem tame_of_source {z : Respacing} (h : TameSource (z.source .old)) : Tame z :=
  h.imp short_of_namesFit dotless_of_source

/-- A word of ASCII characters without escapes is its own name. -/
theorem name_of_plain {cs : List Scalar} (h : ∀ c ∈ cs, c.code < 0x80 ∧ c.code ≠ 92)
    (first : Bool) :
    (Word.measure 0 first cs).name.length = (Word.measure 0 first cs).count ∧
      ∀ b ∈ (Word.measure 0 first cs).name, b < 0x80 := by
  induction cs generalizing first with
  | nil => exact ⟨rfl, by simp [Word.measure]⟩
  | cons c cs ih =>
    obtain ⟨hlt, hne⟩ := h c List.mem_cons_self
    obtain ⟨hlength, hascii⟩ := ih (fun c hc ↦ h c (List.mem_cons_of_mem _ hc)) false
    rw [Word.measure, if_neg (by simpa using hne)]
    split
    · rw [Word.moreCode, Utf8.encode, if_pos hlt]
      refine ⟨by simp [hlength], ?_⟩
      simp only [List.singleton_append, List.forall_mem_cons]
      refine ⟨UInt8.lt_iff_toNat_lt.2 ?_, hascii⟩
      rw [Nat.toUInt8, UInt8.toNat_ofNat_of_lt' (lt_trans hlt (by decide))]
      exact hlt
    · exact ⟨rfl, by simp⟩

/-- In a text of ASCII characters without backslashes, names fit. -/
theorem namesFit_of_plain {source : Bytes} (h : ∀ b ∈ source, b < 0x80 ∧ b ≠ 92) :
    NamesFit source := by
  rintro gs rest hsuffix w rfl - hcount
  have hmem : ∀ g ∈ gs ++ rest, g ∈ Utf8.glyphs source := fun g hg ↦ hsuffix.subset hg
  have hplain : ∀ c ∈ (gs ++ rest).map Glyph.scalar, c.code < 0x80 ∧ c.code ≠ 92 := by
    intro c hc
    obtain ⟨g, hg, rfl⟩ := List.mem_map.1 hc
    obtain ⟨b, tails, hbytes, -, more, hcode, -⟩ := Utf8.exists_bytes_of_mem_glyphs (hmem g hg)
    have hb : b ∈ source := by
      rw [← Utf8.flatMap_bytes_glyphs source, List.mem_flatMap]
      exact ⟨g, hmem g hg, by simp [hbytes]⟩
    obtain ⟨hlt, hne⟩ := h b hb
    rw [Utf8.ofLead_of_lt hlt] at hcode
    rw [Glyph.scalar_code, hcode]
    exact ⟨UInt8.lt_iff_toNat_lt.1 hlt, fun heq ↦ hne (UInt8.toNat_inj.1 heq)⟩
  obtain ⟨hlength, hascii⟩ := name_of_plain hplain true
  have hall : (Word.measure 0 true ((gs ++ rest).map Glyph.scalar)).name.all (· < 0x80) = true := by
    simpa using hascii
  have hwidth : gs.length ≤ (gs.flatMap Glyph.bytes).length := by
    rw [List.length_flatMap]
    refine (List.length_le_sum_of_one_le _ fun n hn ↦ ?_).trans' (by simp)
    obtain ⟨g, hg, rfl⟩ := List.mem_map.1 hn
    exact Utf8.width_pos_of_mem_glyphs (hmem g (List.mem_append_left _ hg))
  rw [nameLength, Parse.nameSpan, hall, if_pos rfl, Nat.zero_add, hlength, hcount]
  exact hwidth

end Script

namespace Fix

open Script

/-- **Replacing gaps keeps a script.** Fixes that replace gaps, any two of them equal or apart, make
a text out of a tame script that is refused or accepted as the script is. If the two are accepted,
their tokens and entries correspond. -/
theorem parse_apply {source : Bytes} {failures : List Failure}
    (hregaps : ∀ r ∈ failures.filterMap (·.fix), Regaps source r)
    (hagree : ∀ r ∈ failures.filterMap (·.fix), ∀ s ∈ failures.filterMap (·.fix), Agree r s)
    (htame : TameSource source) :
    ∃ (rs : List Replacement) (h : Sets source 0 rs),
      (∀ r, r ∈ rs ↔ r ∈ failures.filterMap (·.fix)) ∧
      (apply source failures).output = patch source 0 rs ∧
      ((∃ e : Side → SyntaxError, ∀ i, parse ((Respacing.ofPatch h).source i) = .error (e i)) ∨
        ∃ p tr, (∀ i, parse ((Respacing.ofPatch h).source i) = .ok (p i)) ∧
          ReadsScript (.ofPatch h) p tr) := by
  have hin : ∀ r ∈ failures.filterMap (·.fix), inRange source.length r = true := fun r hr ↦ by
    have hr := hregaps r hr
    have hstop := hr.stop_lt
    have hnonneg := hr.nonneg
    have hle := hr.le
    rw [inRange_iff]
    omega
  obtain ⟨rs, hahead, hmem, houtput, -⟩ := apply_of_agree hin hagree
  have hsets : Sets source 0 rs :=
    ⟨fun r hr ↦ hregaps r ((hmem r).1 hr), hahead, fun r hr ↦ (hregaps r ((hmem r).1 hr)).start_pos⟩
  refine ⟨rs, hsets, hmem, houtput, parse_alike (tame_of_source ?_)⟩
  rwa [Respacing.source_ofPatch_old]

end Fix

end ColonGap
