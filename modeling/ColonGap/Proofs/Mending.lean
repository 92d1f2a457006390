import ColonGap.Proofs.Addresses
import ColonGap.Proofs.Remainders
import ColonGap.Proofs.Seams

/-!
# Mending a script

The recorded end of a key may be wrong, and then a fix may land anywhere behind it. If the recorded
ends of all keys are exact, it cannot: every gap that is fixed is a seam. So the script is still the
same program after it has been fixed (`check_keeps_program`), and one round of fixing leaves nothing
to fix (`fixAll_settles`).

Both are about tame scripts: without `...`, or with no name that is recorded longer than it is
written. Behind `...` the recorded end of an operand decides whether an array can be read as a
pattern, and it must not move.

## One round is enough

A colon that is found in the fixed text belongs to an entry, and that entry has a colon in the
script as well. If a gap was fixed in front of it, then its new blanks are what the policy asks for.
If none was, then the texts between the key and the colon are the same, so the blanks there had been
accepted.

That the entry has a colon in the script as well is known only where the next-line control does not
keep the search from it, so the second theorem is about scripts without that character.
-/

namespace ColonGap

open Script Piece

/-! ### Kinds -/

/-- The kind of an entry that is listed is known. -/
theorem Script.Node.kind_ne_unknown (n : Node) {kind : ConstructKind} {key value : Expr}
    (h : Occurrence.keyed kind key value ∈ n.occurrences) : kind ≠ .unknown := by
  induction n using Node.induction_on with
  | step n ih =>
    rw [Node.occurrences_eq, List.mem_append, List.mem_flatMap] at h
    rcases h with h | ⟨c, hc, h⟩
    · rw [Option.mem_toList] at h
      unfold Node.record? at h
      split at h <;> cases h <;> simp
    · exact ih c hc h

namespace Script

variable {z : Respacing} {p : Side → Program} {tr older : Trace} {g : Glyph} {qs : List Piece}

/-! ### Sites of entries -/

/-- The recorded end of every key is exact. -/
def ExactKeys (source : Bytes) (program : Program) : Prop :=
  ∀ e ∈ entriesOf (occurrencesInStmts program), e.1.endsExactly source = true

/-- The entries of the two scripts are paired, and the colon of a pair is a token that both have. -/
theorem ReadsScript.exists_site (h : ReadsScript z p tr)
    (hexact : ExactKeys (z.source .old) (p .old)) {i : Side} {entry : Entry}
    (hentry : entry ∈ entriesOf (occurrencesInStmts (p i))) :
    ∃ (e : Side → Entry) (older : Trace) (g : Glyph) (qs : List Piece), e i = entry ∧
      (∀ j, e j ∈ entriesOf (occurrencesInStmts (p j))) ∧ Site z tr older g qs ∧
      Ended z (fun j ↦ (e j).1.stop) (Trace.stop z older) := by
  obtain ⟨es, hes, hsited⟩ := h.entries
  rw [ExactKeys] at hexact
  simp only [Tree.entries_inStmts] at hentry hexact hes ⊢
  rw [hes i] at hentry
  obtain ⟨e, he, rfl⟩ := List.mem_map.1 hentry
  have hmem : ∀ j, e j ∈ Tree.entries (p j) := fun j ↦ by
    rw [hes j]
    exact List.mem_map_of_mem he
  obtain ⟨older, g, qs, htoken, hg, hbehind, hjoined, ⟨b, hb, hended⟩, -, -⟩ := hsited e he
  have hold := hexact (e .old) (hmem .old)
  exact ⟨e, older, g, qs, rfl, hmem, ⟨htoken, hg, hbehind, hjoined⟩, hended (by rw [← hb .old, hold])⟩

/-- The part of a colon with its gap, on one side. -/
def sitePart (z : Respacing) (i : Side) (older : Trace) (g : Glyph) (qs : List Piece) : Part :=
  ⟨.colon, z.offset i (Trace.stop z older), z.offset i (same g :: qs) + 1⟩

namespace Site

variable {stop : Side → Nat} {kind : ConstructKind} {key value : Expr} {part : Part}

/-- The colon that is found behind an exact key is its own. -/
theorem part_eq (h : Site z tr older g qs) (hchain : Trace.Chain z tr)
    (hended : Ended z stop (Trace.stop z older)) {i : Side} (hstop : key.stop = stop i)
    (hpart : (SourceFile.constructOf (z.source i) (.keyed kind key value)).colon? = some part) :
    part = sitePart z i older g qs := by
  obtain ⟨closed, colon, rfl, hpasses, hcolon⟩ := SourceFile.colon?_constructOf.1 hpart
  rw [hstop, Nat.min_eq_left (hended.stop_le i)] at hpasses
  obtain ⟨rfl, rfl⟩ := hended.eq_of_passes h.joined (h.place hchain) h.colon hpasses hcolon
  rfl

/-- A colon that is found on one side is found on the other. -/
theorem exists_colon (h : Site z tr older g qs) (hchain : Trace.Chain z tr)
    (hended : Ended z stop (Trace.stop z older)) {i j : Side} (hstop : key.stop = stop i)
    (hpart : (SourceFile.constructOf (z.source i) (.keyed kind key value)).colon? = some part)
    (hplain : ¬ [0xC2, 0x85] <:+: z.source j) {kind' : ConstructKind} {key' value' : Expr}
    (hstop' : key'.stop = stop j) :
    (SourceFile.constructOf (z.source j) (.keyed kind' key' value')).colon?
      = some (sitePart z j older g qs) := by
  obtain ⟨closed, colon, rfl, hpasses, hcolon⟩ := SourceFile.colon?_constructOf.1 hpart
  rw [hstop, Nat.min_eq_left (hended.stop_le i)] at hpasses
  refine SourceFile.colon?_constructOf.2 ⟨_, _, rfl, ?_, h.getElem? hchain j⟩
  rw [hstop', Nat.min_eq_left (hended.stop_le j)]
  exact (hended.passes_of_passes h.joined hpasses hcolon j).toBlank hplain

/-- The gap of a colon is measured from the end of the token before it. -/
theorem gapOf_sitePart (h : Site z tr older g qs) (hchain : Trace.Chain z tr) (i : Side) :
    Rule.BeforeColon.gapOf (z.source i) (sitePart z i older g qs)
      = GapRun.measure (text i (Trace.stop z older)) := by
  have hle := Respacing.offset_le_of_suffix (h.suffix hchain) (h.stop_pieces hchain) i
  rw [sitePart, Rule.BeforeColon.gapOf_colon hle (h.getElem? hchain i),
    Respacing.drop_offset (h.stop_pieces hchain)]

/-- Without a gap before its colon, an entry has the same blanks there on both sides. -/
theorem gapOf_eq_of_seamed (h : Site z tr older g qs) (hchain : Trace.Chain z tr)
    (hseamed : Seamed z tr) (hgap : startsGap (Trace.stop z older) = false) (i j : Side) :
    Rule.BeforeColon.gapOf (z.source i) (sitePart z i older g qs)
      = Rule.BeforeColon.gapOf (z.source j) (sitePart z j older g qs) := by
  obtain ⟨gs, hgs⟩ := hseamed.exists_stretch hchain h hgap
  have hcode := h.colon
  have hbytes : g.bytes = [58] := by
    rw [bytes_of_code (h.place hchain) (by omega), hcode]
    rfl
  rw [h.gapOf_sitePart hchain, h.gapOf_sitePart hchain, hgs]
  simp only [text_append, text_map_same, text_same, hbytes, List.cons_append, List.nil_append]
  rw [Gap.measure_append_colon, Gap.measure_append_colon]

/-- The replacement of the gap of a colon. -/
theorem replacementOf_sitePart (h : Site z tr older g qs) (hchain : Trace.Chain z tr)
    (policy : Policy) (i : Side) :
    Rule.BeforeColon.replacementOf policy (z.source i) (sitePart z i older g qs)
      = ⟨z.offset i (Trace.stop z older), z.offset i (Trace.stop z older)
          + (GapRun.measure (text i (Trace.stop z older))).width,
        List.replicate policy.fixedLength 32⟩ := by
  rw [Rule.BeforeColon.replacementOf, h.gapOf_sitePart hchain]
  rfl

end Site

/-! ### Blanks that have been put in -/

/-- Spaces that were put into a gap are the whole gap. -/
theorem measure_text_gap {blanks : Side → List Glyph} {ps : List Piece} {n : Nat}
    (h : gap blanks :: ps <:+ z.pieces)
    (hblanks : blanks .new = Utf8.glyphs (List.replicate n 32)) :
    GapRun.measure (text .new (gap blanks :: ps)) = ⟨n, n, false⟩ := by
  obtain ⟨-, ⟨g, qs, rfl, hg⟩, -⟩ := z.valid.of_suffix h
  have hbytes := bytes_of_code ((List.suffix_cons _ _).trans h) (by omega)
  have hstop : GapRun.measure (text .new (same g :: qs)) = ⟨0, 0, false⟩ := by
    rcases hg with hg | hg <;>
      · rw [text_same, hbytes, hg, List.singleton_append, GapRun.measure_cons,
          Utf8.ofLead_of_lt (by decide), if_neg (by decide)]
  rw [text_gap, hblanks, Utf8.flatMap_bytes_glyphs, GapRun.measure_replicate_append, hstop]
  simp

/-! ### From a script to its patch -/

/-- Before the end of a token that a gap may follow there is a character that may precede it. -/
theorem Behind.exists_glyphs {rs : List Piece} (h : Behind z rs) {i : Side}
    (hstarts : Utf8.Starts ((z.source i).drop (z.offset i rs))) :
    ∃ xs g, Utf8.glyphs ((z.source i).take (z.offset i rs)) = xs ++ [g] ∧
      mayPrecede g.code = true := by
  obtain ⟨g, ⟨front, hfront⟩, hg⟩ := h
  have hrs : rs <:+ z.pieces := (List.suffix_cons _ _).trans ⟨front, hfront⟩
  have hglyphs : Utf8.glyphs (z.source i) = (glyphs i front ++ [g]) ++ glyphs i rs := by
    rw [Respacing.source, z.cut, ← hfront, Piece.glyphs_append, glyphs_same, List.append_assoc]
    rfl
  rw [← List.take_append_drop (z.offset i rs) (z.source i), Utf8.glyphs_append hstarts,
    Respacing.drop_offset hrs, Respacing.glyphs_text hrs] at hglyphs
  exact ⟨_, g, List.append_cancel_right hglyphs, hg⟩

end Script

namespace Rule.BeforeColon

open ColonGap.Fix

variable {name source : Bytes} {file next : SourceFile} {program : Program} {option : OptionValue}

/-- A colon that is recorded is that of an entry. -/
theorem exists_entry_of_colon? (h : SourceFile.parse name source = .ok file)
    (hprogram : Script.parse source = .ok program) {c : Construct} (hc : c ∈ file.constructs)
    {p : Part} (hp : c.colon? = some p) :
    ∃ kind key value, Occurrence.keyed kind key value ∈ occurrencesInStmts program ∧
      c = SourceFile.constructOf source (.keyed kind key value) := by
  rw [SourceFile.constructs_of_parse h hprogram] at hc
  obtain ⟨occurrence, hoccurrence, rfl⟩ := List.mem_map.1 hc
  cases occurrence with
  | element span => simp [SourceFile.constructOf, Construct.colon?] at hp
  | keyed kind key value => exact ⟨kind, key, value, hoccurrence, rfl⟩

/-- What is recorded of an entry. -/
theorem exists_construct_of_entry (h : SourceFile.parse name source = .ok file)
    (hprogram : Script.parse source = .ok program) {entry : Entry}
    (hentry : entry ∈ entriesOf (occurrencesInStmts program)) :
    ∃ c ∈ file.constructs, c.kind ≠ .unknown ∧
      ∃ kind value, c = SourceFile.constructOf source (.keyed kind entry.1 value) := by
  obtain ⟨occurrence, hmem, hoccurrence⟩ := List.mem_filterMap.1 hentry
  cases occurrence with
  | element span => cases hoccurrence
  | keyed kind key value =>
    obtain rfl := Option.some.inj hoccurrence
    have hc := List.mem_map_of_mem (f := SourceFile.constructOf source) hmem
    refine ⟨_, SourceFile.constructs_of_parse h hprogram ▸ hc, ?_, kind, value, rfl⟩
    have hkind : (SourceFile.constructOf source (.keyed kind key value)).kind = kind := by
      simp only [SourceFile.constructOf]
      split <;> rfl
    rw [hkind]
    exact Node.kind_ne_unknown (.script program) hmem

section Sites

variable {z : Respacing} {p : Side → Program} {tr older older' : Trace} {g g' : Glyph}
  {qs qs' : List Piece} {policy : Policy}

/-- A colon that is recorded of a script with exact keys is at a site, and unless the next-line
control is in the way, it is recorded of the other script as well. -/
theorem exists_site_of_colon? (hreads : ReadsScript z p tr)
    (hexact : ExactKeys (z.source .old) (p .old)) {i : Side}
    (h : SourceFile.parse name (z.source i) = .ok file)
    (hp : Script.parse (z.source i) = .ok (p i)) {c : Construct} (hc : c ∈ file.constructs)
    {part : Part} (hpart : c.colon? = some part) :
    ∃ older g qs, Site z tr older g qs ∧ part = sitePart z i older g qs ∧
      ∀ {j next}, SourceFile.parse name (z.source j) = .ok next →
        Script.parse (z.source j) = .ok (p j) → ¬ [0xC2, 0x85] <:+: z.source j →
        ∃ c ∈ next.constructs, c.colon? = some (sitePart z j older g qs) ∧ c.kind ≠ .unknown := by
  obtain ⟨kind, key, value, hmem, rfl⟩ := exists_entry_of_colon? h hp hc hpart
  obtain ⟨e, older, g, qs, he, hentries, hsite, hended⟩ :=
    hreads.exists_site hexact (List.mem_filterMap.2 ⟨_, hmem, rfl⟩)
  have hstop : key.stop = (e i).1.stop := by rw [he]
  refine ⟨older, g, qs, hsite, hsite.part_eq hreads.chain hended hstop hpart, ?_⟩
  intro j next hnext hpj hplain
  obtain ⟨c, hc, hkind, kind', value', rfl⟩ := exists_construct_of_entry hnext hpj (hentries j)
  exact ⟨_, hc, hsite.exists_colon hreads.chain hended hstop hpart hplain rfl, hkind⟩

/-- Where the fixes of a script with exact keys are. -/
theorem exists_site_of_fix (hreads : ReadsScript z p tr)
    (hexact : ExactKeys (z.source .old) (p .old))
    (h : SourceFile.parse name (z.source .old) = .ok file)
    (hp : Script.parse (z.source .old) = .ok (p .old)) {r : Replacement}
    (hr : r ∈ (check file option).filterMap (·.fix)) :
    ∃ older g qs, Site z tr older g qs ∧
      Gap.Passes isBlank (z.source .old) (z.offset .old (Trace.stop z older))
        (z.offset .old (Trace.stop z older)) (z.offset .old (same g :: qs)) ∧
      r = replacementOf (.ofOption option) (z.source .old) (sitePart z .old older g qs) := by
  obtain ⟨c, hc, part, hpart, -, -, rfl⟩ := (mem_fixes_check h).1 hr
  obtain ⟨older, g, qs, hsite, rfl, -⟩ := exists_site_of_colon? hreads hexact h hp hc hpart
  obtain ⟨closed, colon, heq, hpasses, -⟩ := SourceFile.exists_passes_of_colon? h hc hpart
  simp only [sitePart, Part.mk.injEq, Int.natCast_inj, true_and, Int.add_left_inj] at heq
  obtain ⟨rfl, rfl⟩ := heq
  exact ⟨older, g, qs, hsite, hpasses, rfl⟩

/-- A fix at a site replaces a gap. -/
theorem regaps_of_site (hsite : Site z tr older g qs) (hchain : Trace.Chain z tr) {i : Side}
    (hpasses : Gap.Passes isBlank (z.source i) (z.offset i (Trace.stop z older))
      (z.offset i (Trace.stop z older)) (z.offset i (same g :: qs)))
    (h : Harmless (z.source i) (replacementOf policy (z.source i) (sitePart z i older g qs))) :
    Regaps (z.source i) (replacementOf policy (z.source i) (sitePart z i older g qs)) := by
  refine ⟨h, ?_, ?_⟩
  · exact hsite.behind.exists_glyphs h.starts
  · rw [hsite.replacementOf_sitePart hchain, ← Respacing.drop_offset (hsite.stop_pieces hchain),
      ← Int.natCast_add, Int.toNat_natCast]
    exact hpasses.drop_measure (hsite.getElem? hchain i)

/-- Fixes at sites agree. -/
theorem agree_of_sites (hsite : Site z tr older g qs) (hsite' : Site z tr older' g' qs')
    (hchain : Trace.Chain z tr) (i : Side) :
    Agree (replacementOf policy (z.source i) (sitePart z i older g qs))
      (replacementOf policy (z.source i) (sitePart z i older' g' qs')) := by
  have hstop : ∀ {older g qs}, Site z tr older g qs →
      (replacementOf policy (z.source i) (sitePart z i older g qs)).stop
        ≤ z.offset i (same g :: qs) := by
    intro older g qs hsite
    have hle := Respacing.offset_le_of_suffix (hsite.suffix hchain) (hsite.stop_pieces hchain) i
    have hwidth := Gap.add_width_measure_le hle (hsite.getElem? hchain i)
    rw [Respacing.drop_offset (hsite.stop_pieces hchain)] at hwidth
    rw [hsite.replacementOf_sitePart hchain]
    exact Int.ofNat_le.2 hwidth
  have hahead : ∀ {older g qs older' g' qs'}, Site z tr older g qs → Site z tr older' g' qs' →
      z.offset i (same g :: qs) < z.offset i (Trace.stop z older') →
      Ahead (replacementOf policy (z.source i) (sitePart z i older g qs))
        (replacementOf policy (z.source i) (sitePart z i older' g' qs')) :=
    fun hsite _ hlt ↦ lt_of_le_of_lt (hstop hsite) (Int.ofNat_lt.2 hlt)
  rcases hsite.cases hsite' hchain i with rfl | hlt | hlt
  · left
    rw [hsite.replacementOf_sitePart hchain, hsite'.replacementOf_sitePart hchain]
  · exact .inr (.inl (hahead hsite hsite' hlt))
  · exact .inr (.inr (hahead hsite' hsite hlt))

end Sites

/-- The fixes of a script with exact keys replace gaps, and they agree. -/
theorem regaps_of_fix (h : SourceFile.parse name source = .ok file)
    (hprogram : Script.parse source = .ok program) (hexact : ExactKeys source program)
    (option : OptionValue) :
    (∀ r ∈ (check file option).filterMap (·.fix), Regaps source r) ∧
      ∀ r ∈ (check file option).filterMap (·.fix), ∀ s ∈ (check file option).filterMap (·.fix),
        Agree r s := by
  obtain ⟨tr, hreads⟩ := exists_readsScript hprogram
  rw [← source_still source .old] at h hprogram hexact ⊢
  refine ⟨fun r hr ↦ ?_, fun r hr s hs ↦ ?_⟩
  · obtain ⟨older, g, qs, hsite, hpasses, rfl⟩ := exists_site_of_fix hreads hexact h hprogram hr
    obtain ⟨f, hf, hfix⟩ := List.mem_filterMap.1 hr
    exact regaps_of_site hsite hreads.chain hpasses (harmless_of_mem_check h hf hfix)
  · obtain ⟨older, g, qs, hsite, -, rfl⟩ := exists_site_of_fix hreads hexact h hprogram hr
    obtain ⟨older', g', qs', hsite', -, rfl⟩ := exists_site_of_fix hreads hexact h hprogram hs
    exact agree_of_sites hsite hsite' hreads.chain .old

/-- A script and what its fixes make of it: the two are read alike, every gap is a seam, and the
gaps are those that the fixes fill. -/
structure Mended (source output : Bytes) (fixes : List Replacement) (z : Respacing)
    (p : Side → Program) (tr : Trace) : Prop where
  old : z.source .old = source
  new : z.source .new = output
  parses : ∀ i, Script.parse (z.source i) = .ok (p i)
  reads : ReadsScript z p tr
  seamed : Seamed z tr
  filled : ∀ blanks ps, gap blanks :: ps <:+ z.pieces →
    ∃ r ∈ fixes, blanks .new = Utf8.glyphs r.text
  opened : ∀ r ∈ fixes, ∃ ps, ps <:+ z.pieces ∧ startsGap ps = true ∧
    z.offset .old ps = r.start.toNat

/-- **Fixing a script with exact keys.** If the failures carry fixes of the rule, then what they
make of a tame script is read as the script is. -/
theorem exists_mended (h : SourceFile.parse name source = .ok file)
    (hprogram : Script.parse source = .ok program) (hexact : ExactKeys source program)
    (htame : TameSource source) (option : OptionValue) {failures : List Failure}
    (hfixes : ∀ r ∈ failures.filterMap (·.fix), r ∈ (check file option).filterMap (·.fix)) :
    ∃ z p tr, p .old = program ∧
      Mended source (apply source failures).output (failures.filterMap (·.fix)) z p tr := by
  obtain ⟨hregaps, hagree⟩ := regaps_of_fix h hprogram hexact option
  obtain ⟨rs, hsets, hmem, houtput, hparse⟩ := parse_apply (fun r hr ↦ hregaps r (hfixes r hr))
    (fun r hr s hs ↦ hagree r (hfixes r hr) s (hfixes s hs)) htame
  have hold := Respacing.source_ofPatch_old hsets
  have hnew := Respacing.source_ofPatch_new hsets
  obtain ⟨p, tr, hp, hreads⟩ := hparse.resolve_left fun ⟨e, he⟩ ↦ by
    have hbad := he .old
    rw [hold, hprogram] at hbad
    cases hbad
  obtain rfl : p .old = program := by
    have hsame := hp .old
    rw [hold, hprogram] at hsame
    exact (Except.ok.inj hsame).symm
  refine ⟨.ofPatch hsets, p, tr, rfl, hold, hnew.trans houtput.symm, hp, hreads, ?_, ?_, ?_⟩
  · -- A gap starts where a fix does, and so does the gap of a site.
    rintro ps hps hgap
    obtain ⟨blanks, rest, rfl⟩ : ∃ blanks rest, ps = gap blanks :: rest := by
      match ps, hgap with
      | gap blanks :: rest, _ => exact ⟨blanks, rest, rfl⟩
    obtain ⟨r, hr, -, htext⟩ := hsets.exists_mem hps
    obtain ⟨older, g, qs, hsite, -, hreplacement⟩ := exists_site_of_fix hreads (by rwa [hold])
      (by rwa [hold]) (by rwa [hold]) (hfixes r ((hmem r).1 hr))
    have hoffset := Respacing.offset_ofPatch hsets hr htext
    rw [hreplacement, hsite.replacementOf_sitePart hreads.chain, Int.toNat_natCast] at hoffset
    obtain ⟨b, hb⟩ := exists_before_gap hps hgap
    obtain ⟨b', hb', -⟩ := hsite.behind
    exact ⟨older, g, qs, hsite, eq_of_offset_eq hb hb' hoffset⟩
  · intro blanks ps hps
    obtain ⟨r, hr, hblanks, -⟩ := hsets.exists_mem hps
    exact ⟨r, (hmem r).1 hr, hblanks⟩
  · intro r hr
    obtain ⟨ps, hps, hgap, htext⟩ := hsets.exists_gap ((hmem r).2 hr)
    exact ⟨ps, hps, hgap, Respacing.offset_ofPatch hsets ((hmem r).2 hr) htext⟩

/-- **Fixing keeps the program.** In a tame script let the recorded ends of all keys be exact. What
the fixes of the rule make of it is accepted, and the two scripts are the same but for the places of
their parts; in particular, their literals are. -/
theorem check_keeps_program (h : SourceFile.parse name source = .ok file)
    (hprogram : Script.parse source = .ok program) (hexact : ExactKeys source program)
    (htame : TameSource source) :
    ∃ program', Script.parse (apply source (check file option)).output = .ok program' ∧
      Tree.view .bare program' = Tree.view .bare program := by
  obtain ⟨z, p, tr, rfl, hmended⟩ := exists_mended h hprogram hexact htame option fun _ hr ↦ hr
  refine ⟨p .new, ?_, ?_⟩
  · rw [← hmended.new]
    exact hmended.parses .new
  · exact hmended.reads.alike (hmended.seamed.rigid hmended.reads.chain) .new

/-- **Nothing is left to fix.** If all fixes of the rule are put into a script with exact keys, then
the rule finds nothing in what they make of it. -/
theorem Mended.check_eq_nil {output : Bytes} {fixes : List Replacement} {z : Respacing}
    {p : Side → Program} {tr : Trace} (hmended : Mended source output fixes z p tr)
    (h : SourceFile.parse name source = .ok file) (hnext : SourceFile.parse name output = .ok next)
    (hexact : ExactKeys source (p .old)) (hplain : ¬ [0xC2, 0x85] <:+: source)
    (hfixes : ∀ r, r ∈ fixes ↔ r ∈ (check file option).filterMap (·.fix)) :
    check next option = [] := by
  obtain ⟨rfl, rfl, hparses, hreads, hseamed, hfilled, hopened⟩ := hmended
  have hchain := hreads.chain
  rw [List.eq_nil_iff_forall_not_mem]
  intro f hf
  obtain ⟨c, hc, part, hpart, -, hbad, -⟩ := (mem_check hnext).1 hf
  obtain ⟨older, g, qs, hsite, rfl, hother⟩ :=
    exists_site_of_colon? hreads hexact hnext (hparses .new) hc hpart
  cases hgap : startsGap (Trace.stop z older) with
  | true =>
    -- A fix has put in what the policy asks for.
    obtain ⟨blanks, ps, hstop⟩ : ∃ blanks ps, Trace.stop z older = gap blanks :: ps := by
      match Trace.stop z older, hgap with
      | gap blanks :: ps, _ => exact ⟨blanks, ps, rfl⟩
    have hpieces := hsite.stop_pieces hchain
    rw [hstop] at hpieces
    obtain ⟨r, hr, hblanks⟩ := hfilled blanks ps hpieces
    obtain ⟨_, _, _, _, _, _, rfl⟩ := (mem_fixes_check h).1 ((hfixes r).1 hr)
    rw [accepted, hsite.gapOf_sitePart hchain, hstop, measure_text_gap hpieces hblanks,
      Policy.accepts_fixedLength, Bool.or_true] at hbad
    cases hbad
  | false =>
    -- The blanks are those of the script, where they would have been fixed.
    obtain ⟨c', hc', hpart', hkind⟩ := hother h (hparses .old) hplain
    rw [accepted, hsite.gapOf_eq_of_seamed hchain hseamed hgap .new .old] at hbad
    have hr := (hfixes _).2 ((mem_fixes_check h).2 ⟨c', hc', _, hpart', hkind, hbad, rfl⟩)
    obtain ⟨ps, hps, hpsgap, hoffset⟩ := hopened _ hr
    rw [hsite.replacementOf_sitePart hchain, Int.toNat_natCast] at hoffset
    obtain ⟨b, hb⟩ := exists_before_gap hps hpsgap
    obtain ⟨b', hb', -⟩ := hsite.behind
    rw [eq_of_offset_eq hb hb' hoffset, hgap] at hpsgap
    cases hpsgap

end Rule.BeforeColon

namespace Lint

open ColonGap.Fix

variable {name source : Bytes} {file next : SourceFile} {program : Program}
  {settings : List Setting} {s : Setting}

/-- Linting carries the fixes of the rules. -/
theorem mem_fixes_run {r : Replacement} : r ∈ (run file settings).filterMap (·.fix) ↔
    ∃ s ∈ settings, r ∈ (s.rule.check file s.option).filterMap (·.fix) := by
  simp only [List.mem_filterMap, mem_run]
  constructor
  · rintro ⟨_, ⟨s, hs, f, hf, rfl⟩, hr⟩
    exact ⟨s, hs, f, hf, hr⟩
  · rintro ⟨s, hs, f, hf, hr⟩
    exact ⟨_, ⟨s, hs, f, hf, rfl⟩, hr⟩

/-- Where no rule reports anything, linting reports nothing. -/
theorem run_eq_nil (h : ∀ s ∈ settings, s.rule.check file s.option = []) :
    run file settings = [] := by
  rw [List.eq_nil_iff_forall_not_mem]
  intro f hf
  obtain ⟨s, hs, g, hg, -⟩ := mem_run.1 hf
  rw [h s hs] at hg
  cases hg

/-- Without failures there is nothing to fix. -/
theorem fixPasses_nil (name : Bytes) (settings : List Setting) (passes : Nat) (source : Bytes) :
    fixPasses name settings passes source [] = .ok ⟨source, [], []⟩ := by
  cases passes <;> rfl

/-- If linting finds nothing in what the fixes make of a script, then the loop ends there. -/
theorem fixPasses_of_clean (h : SourceFile.parse name source = .ok file)
    (hnext : SourceFile.parse name (Fix.apply source (run file settings)).output = .ok next)
    (hclean : run next settings = []) (passes : Nat) :
    fixPasses name settings (passes + 1) source (run file settings)
      = .ok ⟨(Fix.apply source (run file settings)).output,
          (Fix.apply source (run file settings)).applied, []⟩ := by
  rw [fixPasses]
  dsimp only
  split
  case isTrue hnone =>
    -- Nothing was fixed, so the script has been linted already.
    rw [List.isEmpty_iff] at hnone
    have happlied : Fix.applied source (run file settings) = [] := by
      rw [← Fix.filterMap_fix_applied, hnone]
      rfl
    have houtput : (Fix.apply source (run file settings)).output = source := by
      rw [Fix.output_apply, happlied]
      rfl
    rw [houtput, h] at hnext
    obtain rfl := Except.ok.inj hnext
    rw [hnone, houtput, hclean]
  case isFalse =>
    rw [hnext]
    dsimp only
    rw [hclean, fixPasses_nil]
    dsimp only
    rw [List.append_nil]
    split <;> rfl

/-- **One round is enough.** In a tame script without the next-line control let the recorded ends of
all keys be exact. Under the rule alone, fixing succeeds and leaves no failure, the result is the
same program, and there is nothing to fix in it. -/
theorem fixAll_settles (h : SourceFile.parse name source = .ok file)
    (hprogram : Script.parse source = .ok program) (hexact : ExactKeys source program)
    (htame : TameSource source) (hplain : ¬ [0xC2, 0x85] <:+: source)
    (hrule : s.rule = Rule.BeforeColon.rule) :
    ∃ fixed next program', fixAll file [s] (run file [s]) = .ok fixed ∧ fixed.remaining = [] ∧
      SourceFile.parse name fixed.output = .ok next ∧ run next [s] = [] ∧
      fixAll next [s] (run next [s]) = .ok ⟨fixed.output, [], []⟩ ∧
      Script.parse fixed.output = .ok program' ∧
      Tree.view .bare program' = Tree.view .bare program := by
  have hfixes : ∀ r, r ∈ (run file [s]).filterMap (·.fix) ↔
      r ∈ (Rule.BeforeColon.check file s.option).filterMap (·.fix) := by
    intro r
    rw [mem_fixes_run]
    simp [hrule, Rule.BeforeColon.rule]
  obtain ⟨z, p, tr, rfl, hmended⟩ :=
    Rule.BeforeColon.exists_mended h hprogram hexact htame s.option fun r hr ↦ (hfixes r).1 hr
  have hparse : Script.parse (Fix.apply source (run file [s])).output = .ok (p .new) := by
    rw [← hmended.new]
    exact hmended.parses .new
  obtain ⟨next, hnext⟩ := SourceFile.exists_parse hparse name
  have hclean : run next [s] = [] := by
    refine run_eq_nil fun t ht ↦ ?_
    obtain rfl := List.mem_singleton.1 ht
    rw [hrule]
    exact hmended.check_eq_nil h hnext hexact hplain hfixes
  obtain ⟨hname, hsource, -⟩ := SourceFile.parse_eq_ok h
  obtain ⟨hname', hsource', -⟩ := SourceFile.parse_eq_ok hnext
  have hfixed : fixAll file [s] (run file [s])
      = .ok ⟨(Fix.apply source (run file [s])).output,
          (Fix.apply source (run file [s])).applied, []⟩ := by
    rw [fixAll, hname, hsource, maxFixPasses]
    exact fixPasses_of_clean h hnext hclean 9
  refine ⟨_, next, p .new, hfixed, rfl, hnext, hclean, ?_, hparse, ?_⟩
  · rw [fixAll, hname', hsource', hclean, fixPasses_nil]
  · exact hmended.reads.alike (hmended.seamed.rigid hmended.reads.chain) .new

/-- A computed key in parentheses, with a colon in the comment behind it, next to a spread. -/
theorem fixAll_settles_computed :
    let source := utf8 "x = \x7b[(b)]\t/* : */ : 1, ...c\x7d"
    let s : Setting := ⟨Rule.BeforeColon.rule, Severity.error, .text (utf8 "nospace")⟩
    ∃ file program, SourceFile.parse (utf8 "a.js") source = .ok file ∧
      Script.parse source = .ok program ∧ ExactKeys source program ∧ TameSource source ∧
      ¬ [0xC2, 0x85] <:+: source ∧ s.rule = Rule.BeforeColon.rule ∧
      ∃ fixed next program', fixAll file [s] (run file [s]) = .ok fixed ∧ fixed.remaining = [] ∧
        SourceFile.parse (utf8 "a.js") fixed.output = .ok next ∧ run next [s] = [] ∧
        fixAll next [s] (run next [s]) = .ok ⟨fixed.output, [], []⟩ ∧
        Script.parse fixed.output = .ok program' ∧
        Tree.view .bare program' = Tree.view .bare program := by
  intro source s
  have hkeys : ((Script.parse source).toOption.map fun program ↦
      (entriesOf (occurrencesInStmts program)).all fun e ↦ e.1.endsExactly source)
        = some true := by decide +kernel
  have htame : TameSource source := .inl (namesFit_of_plain (by decide +kernel))
  have hplain : ¬ [0xC2, 0x85] <:+: source := by decide +kernel
  cases hparse : Script.parse source with
  | error e => simp [hparse, Except.toOption] at hkeys
  | ok program =>
    have hexact : ExactKeys source program := by
      simpa [hparse, Except.toOption, ExactKeys] using hkeys
    obtain ⟨file, hfile⟩ := SourceFile.exists_parse hparse (utf8 "a.js")
    exact ⟨file, program, hfile, rfl, hexact, htame, hplain, rfl,
      fixAll_settles hfile hparse hexact htame hplain rfl⟩

end Lint

end ColonGap
