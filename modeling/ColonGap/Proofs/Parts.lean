import ColonGap.Proofs.Items

/-!
# How the parts of a construct lie in the source

A construct that is recorded for a script has one part that is no colon, or a key, a colon and a
value that follow each other without a gap or an overlap. The part of a colon lies in the source,
ends with a colon, holds nothing else but blanks and whole comments, and starts between two
characters (`Construct.Laid`).

This rests on the search for the colon alone. Nothing is asked of the tree: the offsets in it may be
wrong or lie outside the source, because an entry is recorded with offsets that are moved into the
source, and a search that starts in the middle of a character finds nothing.
-/

namespace ColonGap

namespace Utf8

/-! ### Character boundaries -/

/-- An offset in a text before which there are whole characters: the start of one of its characters,
or its end. A malformed byte counts as a character. -/
def IsBoundary (s : Bytes) (n : Nat) : Prop :=
  ∃ front, front <+: scalars s ∧ (front.map Scalar.width).sum = n

/-- The characters of a text are as wide together as the text is long. -/
theorem sum_width_scalars (s : Bytes) : ((scalars s).map Scalar.width).sum = s.length := by
  induction s using glyph_induction with
  | nil => rfl
  | cons b rest ih =>
    have hpos := one_le_width_ofLead b rest
    have hle := width_ofLead_le b rest
    rw [scalars_cons, List.map_cons, List.sum_cons, ih, List.length_drop, List.length_cons]
    omega

/-- A byte that is no tail byte starts a character. -/
theorem isBoundary_of_starts {s : Bytes} {n : Nat} (hn : n ≤ s.length) (h : Starts (s.drop n)) :
    IsBoundary s n := by
  refine ⟨scalars (s.take n), ⟨scalars (s.drop n), ?_⟩, ?_⟩
  · rw [← scalars_append h, List.take_append_drop]
  · rw [sum_width_scalars, List.length_take, Nat.min_eq_left hn]

end Utf8

/-! ### Gaps -/

namespace Gap

variable {source rest : Bytes} {start stop : Nat} {pieces : List Bytes}

/-- No item is empty. -/
theorem AreItems.ne_nil (h : AreItems pieces rest) : ∀ piece ∈ pieces, piece ≠ [] := by
  induction pieces with
  | nil => simp
  | cons piece pieces ih => exact List.forall_mem_cons.2 ⟨h.1.ne_nil, ih h.2⟩

/-- If the key is closed where the items start, none of them closes it. -/
theorem AreItems.not_closes (h : AreItems pieces rest) (hclosed : closedBy start pieces = start) :
    ∀ piece ∈ pieces, closes piece = false := by
  have hempty : (pieces.rdropWhile fun piece ↦ !closes piece).flatten = [] := by
    rw [closedBy] at hclosed
    exact List.eq_nil_of_length_eq_zero (by omega)
  have hnone : (pieces.rdropWhile fun piece ↦ !closes piece) = [] := by
    refine List.eq_nil_iff_forall_not_mem.2 fun piece hpiece ↦ ?_
    exact h.ne_nil piece ((List.rdropWhile_prefix _ _).subset hpiece)
      (List.flatten_eq_nil_iff.1 hempty piece hpiece)
  simpa using List.rdropWhile_eq_nil_iff.1 hnone

end Gap

/-! ### Parts -/

/-- The part of a colon lies in the source and starts between two of its characters. It holds blanks
and whole comments, and then the colon. -/
structure Part.IsColon (source : Bytes) (p : Part) : Prop where
  kind : p.kind = .colon
  nonneg : 0 ≤ p.start
  lt : p.start < p.stop
  le : p.stop ≤ source.length
  colon : source[p.stop.toNat - 1]? = some 58
  gap : ∃ pieces, source.slice p.start.toNat (p.stop.toNat - 1) = pieces.flatten ∧
    Gap.AreItems pieces (source.drop (p.stop.toNat - 1)) ∧
    ∀ piece ∈ pieces, Gap.closes piece = false
  boundary : Utf8.IsBoundary source p.start.toNat

/-- A construct has a single part, which is no colon, or a key, a colon and a value, each of which
starts where the one before it stops. -/
def Construct.Laid (source : Bytes) (c : Construct) : Prop :=
  (∃ p, c.parts = [p] ∧ p.kind ≠ .colon) ∨
    ∃ key colon value, c.parts = [key, colon, value] ∧ key.kind = .key ∧ value.kind = .value ∧
      colon.IsColon source ∧ key.stop = colon.start ∧ colon.stop = value.start

namespace SourceFile

open Script

variable {source : Bytes}

/-- What the search finds is the part of a colon. -/
theorem isColon_of_findColon {start : Int} {closed colon : Nat}
    (h : Gap.findColon source start = some (closed, colon)) :
    Part.IsColon source ⟨.colon, closed, colon + 1⟩ := by
  obtain ⟨-, -, pieces, hleads, hclosed⟩ := Gap.findColon_eq_some_iff_leads.1 h
  have hpasses := ((Gap.passes_iff_leads hleads.colon).2 ⟨pieces, hleads, hclosed⟩).of_closed
  obtain ⟨gap, hgap, hnone⟩ := (Gap.passes_iff_leads hleads.colon).1 hpasses
  have hle := hgap.le
  have hlt : colon < source.length := (List.getElem?_eq_some_iff.1 hleads.colon).1
  refine ⟨rfl, Int.natCast_nonneg _, ?_, ?_, hleads.colon, ?_, ?_⟩
  · exact Int.lt_add_one_of_le (Int.ofNat_le.2 hle)
  · exact Int.ofNat_le.2 hlt
  · exact ⟨gap, hgap.text, hgap.items, hgap.items.not_closes hnone.symm⟩
  · exact Utf8.isBoundary_of_starts (hle.trans hlt.le) (hpasses.starts hleads.colon)

/-- Whatever offsets an occurrence has, the parts of its construct are laid out. -/
theorem laid_constructOf (source : Bytes) (occurrence : Occurrence) :
    (constructOf source occurrence).Laid source := by
  cases occurrence with
  | element span => exact .inl ⟨_, rfl, by simp⟩
  | keyed kind key value =>
    rw [constructOf]
    dsimp only
    split
    case h_1 closed colon hfind =>
      exact .inr ⟨_, _, _, rfl, rfl, rfl, isColon_of_findColon hfind, rfl, rfl⟩
    case h_2 => exact .inl ⟨_, rfl, by simp⟩

/-- **The parts of constructs.** Every construct of a tree, whatever offsets the tree has, is laid
out in the source, and so is every construct of a source that can be parsed. -/
theorem constructs_laid (source : Bytes) :
    (∀ program : Program, ∀ c ∈ constructsOf source program, c.Laid source) ∧
      ∀ name file, parse name source = .ok file →
        file.source = source ∧ ∀ c ∈ file.constructs, c.Laid source := by
  have hall : ∀ program : Program, ∀ c ∈ constructsOf source program, c.Laid source := by
    intro program c hc
    obtain ⟨occurrence, -, rfl⟩ := List.mem_map.1 hc
    exact laid_constructOf source occurrence
  refine ⟨hall, fun name file h ↦ ?_⟩
  obtain ⟨-, hsource, program, -, hconstructs⟩ := parse_eq_ok h
  rw [hconstructs]
  exact ⟨hsource, hall program⟩

/-- The first key is recorded to end inside a blank of two bytes, where no search can start; the
second colon is behind a bracket in a comment. -/
theorem constructs_laid_insideBlank :
    let source := utf8 "x = \x7b[é]\u00a0: 1, b /* ] */\u2028: 2\x7d"
    ∃ file, parse (utf8 "a.js") source = .ok file ∧
      file.constructs.map Construct.parts
        = [[⟨.key, 6, 10⟩], [⟨.key, 16, 17⟩, ⟨.colon, 17, 29⟩, ⟨.value, 29, 31⟩]] ∧
      ∀ c ∈ file.constructs, c.Laid source := by
  intro source
  have hparts : (parse (utf8 "a.js") source).toOption.map (·.constructs.map Construct.parts)
      = some [[⟨.key, 6, 10⟩], [⟨.key, 16, 17⟩, ⟨.colon, 17, 29⟩, ⟨.value, 29, 31⟩]] := by
    decide +kernel
  cases hfile : parse (utf8 "a.js") source with
  | error e => simp [hfile, Except.toOption] at hparts
  | ok file =>
    refine ⟨file, rfl, ?_, ((constructs_laid source).2 _ _ hfile).2⟩
    simpa [hfile, Except.toOption] using hparts

end SourceFile

end ColonGap
