import ColonGap.Proofs.Colons
import ColonGap.Proofs.Regaps

/-!
# Gaps between tokens

A gap of two texts is a seam if it starts where a token ends and the colon of an entry is the next
token. If every gap is one (`Seamed`), then no token has a gap in it (`Seamed.rigid`), and from the
end of a key up to its colon there is no gap but the one that starts there
(`Seamed.exists_stretch`).

Both rest on one fact (`Seamed.eq_or_suffix`): the tokens of a trace are in order, so a gap that is
met from the end of one token on either starts right there or lies behind the next token.

## Places and offsets

Where a gap starts is known as an offset of the old text only, and different places may have the
same offset, because a gap may be empty. But a character of both texts stands before a gap and
before the end of a token, and such places are known from their offset (`eq_of_offset_eq`).
-/

namespace ColonGap.Script

open Piece

variable {z : Respacing} {tr older older' : Trace} {ps qs rs : List Piece} {g g' : Glyph}

/-! ### Places behind characters -/

/-- Offsets rise along a character. -/
theorem offset_lt_of_same (hqs : same g :: qs <:+ ps) (hps : ps <:+ z.pieces) (i : Side) :
    z.offset i ps < z.offset i qs :=
  calc z.offset i ps
      ≤ z.offset i (same g :: qs) := Respacing.offset_le_of_suffix hqs hps i
    _ < z.offset i qs :=
      offset_lt_of_suffix (List.suffix_cons _ _) (by simp) (hqs.trans hps) rfl i

/-- Two places behind characters that have the same offset are the same. -/
theorem eq_of_offset_eq (hps : same g :: ps <:+ z.pieces) (hqs : same g' :: qs <:+ z.pieces)
    {i : Side} (h : z.offset i ps = z.offset i qs) : ps = qs := by
  have hlt : ∀ {g g' ps qs}, same g :: ps <:+ z.pieces → same g' :: qs <:+ z.pieces →
      same g :: ps <:+ same g' :: qs → ps = qs ∨ z.offset i qs < z.offset i ps := by
    intro g g' ps qs _ hqs hsuffix
    rcases List.suffix_cons_iff.1 hsuffix with heq | hsuffix
    · exact .inl (List.cons.inj heq).2
    · exact .inr (offset_lt_of_same hsuffix ((List.suffix_cons _ _).trans hqs) i)
  rcases List.suffix_or_suffix_of_suffix hps hqs with hsuffix | hsuffix
  · exact (hlt hps hqs hsuffix).resolve_right (by omega)
  · exact ((hlt hqs hps hsuffix).resolve_right (by omega)).symm

/-- A character of both texts stands before a gap. -/
theorem exists_before_gap (hps : ps <:+ z.pieces) (hgap : startsGap ps = true) :
    ∃ g, same g :: ps <:+ z.pieces := by
  obtain ⟨front, hfront⟩ := hps
  rcases List.eq_nil_or_concat front with rfl | ⟨front, p, rfl⟩
  · have hstarts := z.startsGap
    rw [← hfront, List.nil_append, hgap] at hstarts
    cases hstarts
  · rw [List.concat_eq_append, List.append_assoc] at hfront
    have hsuffix : p :: ps <:+ z.pieces := ⟨front, hfront⟩
    cases p with
    | same g => exact ⟨g, hsuffix⟩
    | gap blanks =>
      -- Behind a gap there is a character.
      obtain ⟨-, ⟨g, qs, rfl, -⟩, -⟩ := z.valid.of_suffix hsuffix
      cases hgap

/-- A stretch in which no gap starts consists of characters of both texts. -/
theorem exists_map_same (h : qs <:+ ps)
    (hno : ∀ rs, rs <:+ ps → startsGap rs = true → rs <:+ qs) :
    ∃ gs : List Glyph, ps = gs.map same ++ qs := by
  obtain ⟨front, rfl⟩ := h
  obtain ⟨gs, rest, rfl, hrest⟩ := exists_front front
  rcases hrest with rfl | hrest
  · exact ⟨gs, by simp⟩
  · have hsuffix : rest ++ qs <:+ qs := by
      refine hno _ ⟨gs.map same, by simp⟩ ?_
      cases rest with
      | nil => cases hrest
      | cons p rest => cases p <;> simp_all
    have hlength := hsuffix.length_le
    cases rest with
    | nil => cases hrest
    | cons p rest =>
      simp only [List.length_append, List.length_cons] at hlength
      omega

/-! ### Tokens in order -/

/-- Two tokens of a trace are the same, or one of them was passed before the other. -/
theorem Trace.token_cases {t t' : List Piece × List Piece} (h : t :: older <:+ tr)
    (h' : t' :: older' <:+ tr) :
    older = older' ∨ t :: older <:+ older' ∨ t' :: older' <:+ older := by
  rcases List.suffix_or_suffix_of_suffix h h' with hsuffix | hsuffix
  · rcases List.suffix_cons_iff.1 hsuffix with heq | hsuffix
    · exact .inl (List.cons.inj heq).2
    · exact .inr (.inl hsuffix)
  · rcases List.suffix_cons_iff.1 hsuffix with heq | hsuffix
    · exact .inl (List.cons.inj heq).2.symm
    · exact .inr (.inr hsuffix)

/-- The colon of an entry is the next token behind those of `older`. -/
structure Site (z : Respacing) (tr older : Trace) (g : Glyph) (qs : List Piece) : Prop where
  token : (same g :: qs, qs) :: older <:+ tr
  colon : g.code = 58
  behind : Behind z (Trace.stop z older)
  joined : Joined z (Trace.stop z older) (same g :: qs)

namespace Site

theorem place (h : Site z tr older g qs) (hchain : Trace.Chain z tr) :
    same g :: qs <:+ z.pieces :=
  hchain.token_suffix h.token

/-- The colon is at or behind the end of the token before it. -/
theorem suffix (h : Site z tr older g qs) (hchain : Trace.Chain z tr) :
    same g :: qs <:+ Trace.stop z older :=
  (hchain.of_suffix h.token).2.2.1

theorem stop_pieces (h : Site z tr older g qs) (hchain : Trace.Chain z tr) :
    Trace.stop z older <:+ z.pieces :=
  (hchain.of_suffix h.token).2.2.2.stop_suffix (List.nil_suffix : ([] : Trace) <:+ _)

/-- A colon stands at the site of an entry. -/
theorem getElem? (h : Site z tr older g qs) (hchain : Trace.Chain z tr) (i : Side) :
    (z.source i)[z.offset i (same g :: qs)]? = some 58 := by
  have hcode := h.colon
  rw [getElem?_offset (h.place hchain) (by omega), hcode]
  rfl

/-- Two colons are the same, or one of them lies before the gap of the other. -/
theorem cases {g' : Glyph} {qs' : List Piece} (h : Site z tr older g qs)
    (h' : Site z tr older' g' qs') (hchain : Trace.Chain z tr) (i : Side) :
    older = older' ∨ z.offset i (same g :: qs) < z.offset i (Trace.stop z older') ∨
      z.offset i (same g' :: qs') < z.offset i (Trace.stop z older) := by
  have hlt : ∀ {older older' g qs g' qs'}, Site z tr older g qs → Site z tr older' g' qs' →
      (same g :: qs, qs) :: older <:+ older' →
      z.offset i (same g :: qs) < z.offset i (Trace.stop z older') := by
    intro older older' g qs g' qs' h h' hsuffix
    have hstop : Trace.stop z older' <:+ qs :=
      (hchain.of_suffix ((List.suffix_cons _ _).trans h'.token)).stop_suffix hsuffix
    calc z.offset i (same g :: qs)
        < z.offset i qs := offset_lt_of_same List.suffix_rfl (h.place hchain) i
      _ ≤ z.offset i (Trace.stop z older') :=
        Respacing.offset_le_of_suffix hstop ((List.suffix_cons _ _).trans (h.place hchain)) i
  rcases Trace.token_cases h.token h'.token with heq | hsuffix | hsuffix
  · exact .inl heq
  · exact .inr (.inl (hlt h h' hsuffix))
  · exact .inr (.inr (hlt h' h hsuffix))

end Site

/-! ### Seams -/

/-- Every gap starts where the token before the colon of an entry ends. -/
def Seamed (z : Respacing) (tr : Trace) : Prop :=
  ∀ ps, ps <:+ z.pieces → startsGap ps = true →
    ∃ older g qs, Site z tr older g qs ∧ ps = Trace.stop z older

namespace Seamed

/-- A gap behind the end of a token starts there, or it lies behind the next token. -/
theorem eq_or_suffix (h : Seamed z tr) (hchain : Trace.Chain z tr) {t : List Piece × List Piece}
    (ht : t :: older <:+ tr) (hrs : rs <:+ Trace.stop z older) (hgap : startsGap rs = true) :
    rs = Trace.stop z older ∨ rs <:+ t.2 := by
  have hpieces : rs <:+ z.pieces :=
    hrs.trans ((hchain.of_suffix ht).2.2.2.stop_suffix (List.nil_suffix : ([] : Trace) <:+ _))
  obtain ⟨older', g, qs, hsite, rfl⟩ := h rs hpieces hgap
  rcases Trace.token_cases ht hsite.token with heq | hsuffix | hsuffix
  · exact .inl (heq ▸ rfl)
  · have hbefore := hchain.of_suffix ((List.suffix_cons _ _).trans hsite.token)
    exact .inr (hbefore.stop_suffix hsuffix)
  · -- The end of a later token is no earlier place, so the two are the same place.
    have hlater : Trace.stop z older <:+ Trace.stop z older' :=
      (hchain.of_suffix ((List.suffix_cons _ _).trans ht)).stop_suffix
        ((List.suffix_cons _ _).trans hsuffix)
    exact .inl (hrs.eq_of_length_le hlater.length_le)

/-- **No token has a gap in it.** -/
theorem rigid (h : Seamed z tr) (hchain : Trace.Chain z tr) : Trace.Rigid tr := by
  rintro ⟨ps, qs⟩ ht
  obtain ⟨newer, older, rfl⟩ := List.append_of_mem ht
  have htoken : (ps, qs) :: older <:+ newer ++ (ps, qs) :: older := List.suffix_append _ _
  obtain ⟨hstarts, hstop, hplace, -⟩ := hchain.of_suffix htoken
  obtain ⟨gs, hgs⟩ := exists_map_same hstop fun rs hrs hgap ↦ by
    rcases h.eq_or_suffix hchain htoken (hrs.trans hplace) hgap with heq | hsuffix
    · -- A token that starts at the gap would start with it.
      obtain rfl : rs = ps := hrs.eq_of_length_le (heq ▸ hplace.length_le)
      rw [hstarts] at hgap
      cases hgap
    · exact hsuffix
  exact ⟨gs.map same, isRigid_map_same gs, hgs⟩

/-- If no gap starts at the end of a key, then there is none up to the colon. -/
theorem exists_stretch (h : Seamed z tr) (hchain : Trace.Chain z tr)
    (hsite : Site z tr older g qs) (hgap : startsGap (Trace.stop z older) = false) :
    ∃ gs : List Glyph, Trace.stop z older = gs.map same ++ same g :: qs := by
  refine exists_map_same (hsite.suffix hchain) fun rs hrs hrsgap ↦ ?_
  rcases h.eq_or_suffix hchain hsite.token hrs hrsgap with rfl | hsuffix
  · rw [hgap] at hrsgap
    cases hrsgap
  · exact hsuffix.trans (List.suffix_cons _ _)

end Seamed

end ColonGap.Script
