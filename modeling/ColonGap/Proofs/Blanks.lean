import ColonGap.Lint
import ColonGap.Proofs.Location
import ColonGap.Proofs.Ordering
import ColonGap.Proofs.Respacing
import ColonGap.Proofs.Sites

/-!
# Fixing changes blanks and nothing else

The `solid` characters of a text are all but the blanks that end no line. Fixing keeps them
(`fixPasses_solid`), so it keeps the text without its blanks (`ink`) and its line breaks too.

## Why characters stay together

A replacement puts spaces for bytes, and what the bytes around it read as could change. It does not,
because the search for a colon never starts, and never stops for a comment or a colon, in the
middle of a character (`Passes.starts`, `Passes.starts_drop_measure`). Nothing is asked of where the
search starts: the recorded end of a key may be anywhere, and if it is inside a character then
nothing is found.
-/

namespace ColonGap

/-! ### What is kept -/

/-- The characters of a text, without the blanks that end no line. -/
def solid (s : Bytes) : List Glyph :=
  (Utf8.glyphs s).filter fun g ↦ !g.isFiller

/-- A text without its blanks. A malformed byte is no blank. -/
def ink (s : Bytes) : Bytes :=
  ((Utf8.glyphs s).filter fun g ↦ !isBlank g.code).flatMap Glyph.bytes

/-- The line breaks of a text, in order. -/
def lineBreaks (s : Bytes) : List Nat :=
  ((Utf8.glyphs s).map Glyph.code).filter isLineBreak

/-- The ink of a text is that of its solid characters. -/
theorem ink_eq (s : Bytes) :
    ink s = ((solid s).filter fun g ↦ !isBlank g.code).flatMap Glyph.bytes := by
  rw [ink, solid, List.filter_filter]
  congr 1
  refine List.filter_congr fun g _ ↦ ?_
  rw [Glyph.isFiller]
  cases isBlank g.code <;> simp

/-- The line breaks of a text are among its solid characters. -/
theorem lineBreaks_eq (s : Bytes) : lineBreaks s = ((solid s).map Glyph.code).filter isLineBreak := by
  rw [lineBreaks, solid, List.filter_map, List.filter_map, List.filter_filter]
  congr 1
  refine List.filter_congr fun g _ ↦ ?_
  rw [Function.comp_apply, Glyph.isFiller]
  cases isLineBreak g.code <;> simp

@[simp] theorem solid_nil : solid [] = [] := rfl

theorem solid_append {s t : Bytes} (h : Utf8.Starts t) : solid (s ++ t) = solid s ++ solid t := by
  rw [solid, Utf8.glyphs_append h, List.filter_append, solid, solid]

@[simp] theorem solid_spaces (n : Nat) : solid (List.replicate n 32) = [] := by
  induction n with
  | zero => rfl
  | succ n ih =>
    rw [List.replicate_succ, solid, Utf8.glyphs_cons_of_lt (by decide), List.filter_cons]
    exact ih

namespace Utf8

/-- A text that starts with a whole character does so whatever follows it. -/
theorem Starts.append {s t : Bytes} (hs : Starts s) (ht : Starts t) : Starts (s ++ t) := by
  cases s with
  | nil => exact ht
  | cons b rest => exact hs

/-- A part of a text may be cut off where the text behind its start may. -/
theorem Starts.slice {s : Bytes} {i : Nat} (h : Starts (s.drop i)) (j : Nat) :
    Starts (s.slice i j) := by
  intro b hb
  refine h b ?_
  rw [Bytes.slice] at hb
  cases hs : s.drop i with
  | nil => simp [hs] at hb
  | cons c rest =>
    cases hn : j - i with
    | zero => simp [hn] at hb
    | succ n => simpa [hs, hn] using hb

/-- Spaces may be cut off anywhere. -/
theorem starts_spaces (n : Nat) : Starts (List.replicate n 32) := by
  cases n with
  | zero => exact starts_nil
  | succ n => exact starts_cons_of_lt (by decide) _

/-- A byte that reads as a blank is no tail byte. -/
theorem starts_of_isBlank {b : UInt8} {rest : Bytes} (h : isBlank (ofLead b rest).code = true) :
    Starts (b :: rest) := by
  intro c hc
  obtain rfl : b = c := by simpa using hc
  by_contra htail
  rw [Bool.not_eq_false, isTail_iff] at htail
  have hreads := reads_ofLead b rest
  generalize ofLead b rest = c at hreads h
  cases hreads with
  | ascii | two | three | four => omega
  | malformed => exact absurd h (by decide)

end Utf8

/-! ### The gap in front of a colon -/

namespace GapRun

/-- A gap that holds no line break is made of blanks that end no line. -/
theorem solid_take_measure {s : Bytes} (h : (measure s).lineBreak = false)
    (hstarts : Utf8.Starts (s.drop (measure s).width)) :
    solid (s.take (measure s).width) = [] := by
  induction s using Utf8.glyph_induction with
  | nil => rfl
  | cons b rest ih =>
    rw [measure_cons] at h hstarts ⊢
    split
    case isFalse => rfl
    case isTrue hblank =>
      obtain ⟨k, hk⟩ := Nat.exists_eq_add_of_le' (Utf8.one_le_width_ofLead b rest)
      rw [if_pos hblank] at h hstarts
      rw [hk, Nat.add_sub_cancel] at ih h hstarts ⊢
      obtain ⟨hbreak, hrest⟩ := Bool.or_eq_false_iff.1 h
      simp only [Nat.add_right_comm k 1, List.drop_succ_cons, List.take_succ_cons] at hstarts ⊢
      set n := (measure (rest.drop k)).width
      -- The first character reads the same whether or not the text goes on behind the gap.
      have hread : Utf8.ofLead b (rest.take (k + n)) = Utf8.ofLead b rest := by
        conv_rhs => rw [← List.take_append_drop (k + n) rest, Utf8.ofLead_append hstarts]
      have hfiller : (Glyph.mk (Utf8.ofLead b rest).code (b :: rest.take k)).isFiller = true := by
        simp [Glyph.isFiller, hblank, hbreak]
      have hmore := ih hrest (by rwa [List.drop_drop])
      rw [solid, Utf8.glyphs_cons, hread, hk, Nat.add_sub_cancel, List.take_take,
        Nat.min_eq_left (Nat.le_add_right _ _), List.filter_cons, hfiller, List.drop_take,
        Nat.add_sub_cancel_left]
      exact hmore

end GapRun

namespace Gap

variable {blank : Nat → Bool} {source : Bytes} {start closed stop : Nat}

/-- Behind the last closing bracket there are blanks and comments only. -/
theorem Passes.of_closed (h : Passes blank source start closed stop) :
    Passes blank source closed closed stop := by
  induction h with
  | refl => exact .refl
  | separator _ hn ih => exact ih.separator hn
  | closing => exact .refl

/-- The first item of a passage without closing brackets. -/
theorem Passes.uncons (h : Passes blank source start closed stop) (hclosed : closed = start) :
    stop = start ∨ ∃ n, Separates blank (source.drop start) n ∧
      Passes blank source (start + n) (start + n) stop := by
  induction h with
  | refl => exact .inl rfl
  | separator h hn ih =>
    right
    rcases ih hclosed with rfl | ⟨m, hm, hrest⟩
    · exact ⟨_, hn, .refl⟩
    · exact ⟨m, hm, hrest.separator hn⟩
  | closing h _ _ _ =>
    have := h.start_le
    omega

/-- What separates a key from its colon starts with a whole character. -/
theorem Separates.starts {s : Bytes} {n : Nat} (h : Separates isBlank s n) : Utf8.Starts s := by
  cases h with
  | blank h => exact Utf8.starts_of_isBlank h
  | line | block => exact Utf8.starts_cons_of_lt (by decide) _

theorem drop_eq_colon (h : source[stop]? = some 58) :
    source.drop stop = 58 :: source.drop (stop + 1) := by
  obtain ⟨hlt, hget⟩ := List.getElem?_eq_some_iff.1 h
  rw [List.drop_eq_getElem_cons hlt, hget]

/-- A gap starts where a character starts. -/
theorem Passes.starts (h : Passes isBlank source start start stop)
    (hcolon : source[stop]? = some 58) : Utf8.Starts (source.drop start) := by
  rcases h.uncons rfl with rfl | ⟨n, hn, -⟩
  · rw [drop_eq_colon hcolon]
    exact Utf8.starts_cons_of_lt (by decide) _
  · exact hn.starts

/-- A gap ends at a comment or at the colon. -/
theorem Passes.drop_measure (h : Passes isBlank source start start stop)
    (hcolon : source[stop]? = some 58) :
    ∃ c rest, source.drop (start + (GapRun.measure (source.drop start)).width) = c :: rest ∧
      (c = 58 ∨ c = 47) := by
  induction hn : stop - start using Nat.strongRecOn generalizing start with
  | ind k ih =>
    rcases h.uncons rfl with rfl | ⟨n, hsep, hrest⟩
    · rw [drop_eq_colon hcolon, GapRun.measure_cons,
        if_neg (by rw [Utf8.ofLead_of_lt (by decide)]; decide), Nat.add_zero, drop_eq_colon hcolon]
      exact ⟨_, _, rfl, .inl rfl⟩
    · have hpos := hsep.pos
      have hle := hrest.start_le
      have hmore := ih (stop - (start + n)) (by omega) hrest rfl
      generalize hs : source.drop start = s at hsep
      cases hsep with
      | @blank b rest hblank =>
        obtain ⟨m, hm⟩ := Nat.exists_eq_add_of_le' (Utf8.one_le_width_ofLead b rest)
        rw [GapRun.measure_cons, if_pos hblank]
        have hdrop : source.drop (start + (Utf8.ofLead b rest).width)
            = rest.drop ((Utf8.ofLead b rest).width - 1) := by
          rw [← List.drop_drop, hs, hm, List.drop_succ_cons, Nat.add_sub_cancel]
        rwa [hdrop, Nat.add_assoc] at hmore
      | line | block =>
        rw [GapRun.measure_cons, if_neg (by rw [Utf8.ofLead_of_lt (by decide)]; decide),
          Nat.add_zero, hs]
        exact ⟨_, _, rfl, .inr rfl⟩

/-- A gap ends where a character starts. -/
theorem Passes.starts_drop_measure (h : Passes isBlank source start start stop)
    (hcolon : source[stop]? = some 58) :
    Utf8.Starts (source.drop (start + (GapRun.measure (source.drop start)).width)) := by
  obtain ⟨c, rest, hdrop, hc⟩ := h.drop_measure hcolon
  rw [hdrop]
  exact Utf8.starts_cons_of_lt (by rcases hc with rfl | rfl <;> decide) _

/-- A gap ends at a colon at the latest. -/
theorem measure_append_colon (s more : Bytes) :
    GapRun.measure (s ++ 58 :: more) = GapRun.ofScalars (Utf8.scalars s) := by
  rw [GapRun.measure, Utf8.scalars_append (Utf8.starts_cons_of_lt (by decide) _),
    Utf8.scalars_cons]
  induction Utf8.scalars s with
  | nil => rfl
  | cons c cs ih => simp only [List.cons_append, GapRun.ofScalars, ih]

/-- The gap before a colon is the same whether or not one looks beyond the colon. -/
theorem measure_slice (hle : start ≤ stop) (hcolon : source[stop]? = some 58) :
    GapRun.measure (source.slice start (stop + 1)) = GapRun.measure (source.drop start) := by
  have hdrop : source.drop start = source.slice start stop ++ 58 :: source.drop (stop + 1) := by
    rw [← drop_eq_colon hcolon, Bytes.slice_append_drop hle]
  have hslice : source.slice start (stop + 1) = source.slice start stop ++ 58 :: [] := by
    have hlast : source.slice stop (stop + 1) = [58] := by
      simp [Bytes.slice, drop_eq_colon hcolon]
    rw [← Bytes.slice_append_slice hle (Nat.le_succ stop), hlast]
  rw [hdrop, hslice, measure_append_colon, measure_append_colon]

/-- The colon itself is not part of the gap before it. -/
theorem add_width_measure_le (hle : start ≤ stop) (hcolon : source[stop]? = some 58) :
    start + (GapRun.measure (source.drop start)).width ≤ stop := by
  have hlt : stop < source.length := (List.getElem?_eq_some_iff.1 hcolon).1
  have hwidth := GapRun.width_measure_le (source.slice start stop)
  rw [Bytes.length_slice hlt.le, GapRun.measure,
    ← measure_append_colon _ (source.drop (stop + 1)), ← drop_eq_colon hcolon,
    Bytes.slice_append_drop hle] at hwidth
  omega

end Gap

/-! ### Harmless replacements -/

namespace Fix

/-- A replacement of blanks that end no line by spaces, between two characters. -/
structure Harmless (source : Bytes) (r : Replacement) : Prop where
  nonneg : 0 ≤ r.start
  le : r.start ≤ r.stop
  text : ∃ n, r.text = List.replicate n 32
  starts : Utf8.Starts (source.drop r.start.toNat)
  stops : Utf8.Starts (source.drop r.stop.toNat)
  blanks : solid (source.slice r.start.toNat r.stop.toNat) = []

variable {source : Bytes} {items : List (Failure × Replacement)} {done : Nat}
  {previous : Option Replacement}

/-- One replacement that is put in behind the part that is dealt with. -/
theorem Harmless.solid_drop {r : Replacement} (h : Harmless source r) (hdone : (done : Int) ≤ r.start) :
    solid (source.drop done)
      = solid (source.slice done r.start.toNat) ++ solid (source.drop r.stop.toNat) := by
  have hle := h.le
  have hdone : done ≤ r.start.toNat := by omega
  have hstop : r.start.toNat ≤ r.stop.toNat := by omega
  rw [← Bytes.slice_append_drop hdone, solid_append h.starts,
    ← Bytes.slice_append_drop hstop, solid_append h.stops, h.blanks, List.nil_append]

/-- Putting in harmless replacements keeps what is solid, whichever of them are skipped. -/
theorem applyFrom_solid (hitems : ∀ item ∈ items, Harmless source item.2)
    (hprevious : ∀ p ∈ previous, p.stop = (done : Int)) (hnone : previous = none → done = 0) :
    (Utf8.Starts (source.drop done) →
        Utf8.Starts (applyFrom source done previous items).output) ∧
      solid (applyFrom source done previous items).output = solid (source.drop done) := by
  induction items generalizing done previous with
  | nil => exact ⟨id, rfl⟩
  | cons item items ih =>
    obtain ⟨f, r⟩ := item
    have hr : Harmless source r := hitems _ List.mem_cons_self
    have hitems : ∀ item ∈ items, Harmless source item.2 := fun item hitem ↦
      hitems item (List.mem_cons_of_mem _ hitem)
    rw [applyFrom]
    split
    case isTrue => exact ih hitems hprevious hnone
    case isFalse hfree =>
      have hnonneg := hr.nonneg
      have hle := hr.le
      have hdone : (done : Int) ≤ r.start := by
        cases previous with
        | none =>
          have := hnone rfl
          omega
        | some p =>
          have hp := hprevious p rfl
          simp only [Option.any_some, conflicts, Bool.or_eq_true, not_or, decide_eq_true_eq] at hfree
          omega
      obtain ⟨hstarts', hsolid⟩ := @ih r.stop.toNat (some r) hitems
        (fun p hp ↦ by
          obtain rfl : r = p := by simpa using hp
          omega) (by simp)
      have hstarts' := hstarts' hr.stops
      obtain ⟨n, htext⟩ := hr.text
      have hspaces := Utf8.starts_spaces n
      dsimp only
      rw [htext, List.append_assoc]
      refine ⟨fun hstarts ↦ (hstarts.slice _).append (hspaces.append hstarts'), ?_⟩
      rw [solid_append (hspaces.append hstarts'), solid_append hstarts', solid_spaces, hsolid,
        List.nil_append, hr.solid_drop hdone]

/-- Applying harmless fixes keeps the solid characters. -/
theorem apply_solid {failures : List Failure}
    (h : ∀ f ∈ failures, ∀ r, f.fix = some r → Harmless source r) :
    solid (apply source failures).output = solid source := by
  refine (@applyFrom_solid source _ 0 none ?_ (by simp) fun _ ↦ rfl).2
  rintro ⟨f, r⟩ hitem
  obtain ⟨hf, hfix, -⟩ := mem_fixable.1 ((mem_sortBy _).1 hitem)
  exact h f hf r hfix

end Fix

/-! ### The failures of a script -/

namespace SourceFile

open Script

variable {name source : Bytes} {file : SourceFile}

/-- What is parsed is the source under its name, with the constructs of its program. -/
theorem parse_eq_ok (h : parse name source = .ok file) :
    file.name = name ∧ file.source = source ∧
      ∃ program, Script.parse source = .ok program ∧
        file.constructs = constructsOf source program := by
  unfold parse at h
  split at h
  case h_1 => cases h
  case h_2 program hprogram =>
    obtain rfl := Except.ok.inj h
    exact ⟨rfl, rfl, program, hprogram, rfl⟩

/-- A script that is accepted makes a file. -/
theorem exists_parse {program : Program} (h : Script.parse source = .ok program) (name : Bytes) :
    ∃ file, parse name source = .ok file := by
  unfold parse
  rw [h]
  exact ⟨_, rfl⟩

/-- The constructs of a source are those of the program it is parsed to. -/
theorem constructs_of_parse (h : parse name source = .ok file) {program : Program}
    (hprogram : Script.parse source = .ok program) :
    file.constructs = constructsOf source program := by
  obtain ⟨-, -, program', hprogram', hconstructs⟩ := parse_eq_ok h
  obtain rfl := Except.ok.inj (hprogram'.symm.trans hprogram)
  exact hconstructs

/-- The colon of a construct that was found in a script. -/
theorem exists_passes_of_colon? (h : parse name source = .ok file) {c : Construct}
    (hc : c ∈ file.constructs) {p : Part} (hp : c.colon? = some p) :
    ∃ closed colon : Nat, p = ⟨.colon, closed, colon + 1⟩ ∧
      Gap.Passes isBlank source closed closed colon ∧ source[colon]? = some 58 := by
  obtain ⟨-, -, program, -, hconstructs⟩ := parse_eq_ok h
  rw [hconstructs] at hc
  obtain ⟨occurrence, -, rfl⟩ := List.mem_map.1 hc
  cases occurrence with
  | keyed kind key value =>
    obtain ⟨closed, colon, rfl, hpasses, hcolon⟩ := colon?_constructOf.1 hp
    exact ⟨closed, colon, rfl, hpasses.of_closed, hcolon⟩
  | element span => simp [constructOf, Construct.colon?] at hp

end SourceFile

namespace Rule.BeforeColon

variable {name source : Bytes} {file : SourceFile}

/-- The gap in the part of a colon, measured without looking at where the part ends. -/
theorem gapOf_colon {source : Bytes} {closed colon : Nat} (hle : closed ≤ colon)
    (hcolon : source[colon]? = some 58) :
    gapOf source ⟨.colon, closed, colon + 1⟩ = GapRun.measure (source.drop closed) :=
  Gap.measure_slice hle hcolon

theorem fix_failureAt {policy : Policy} {source : Bytes} {p : Part} (hstart : 0 ≤ p.start) :
    (failureAt policy p.start.toNat (gapOf source p).width).fix
      = some (replacementOf policy source p) := by
  simp [failureAt, Failure.ofRange, replacementOf, Int.toNat_of_nonneg hstart]

/-- What the rule finds in a script: the gaps that are not accepted. -/
theorem mem_check (h : SourceFile.parse name source = .ok file) {option : OptionValue}
    {f : Failure} : f ∈ check file option ↔
      ∃ c ∈ file.constructs, ∃ p, c.colon? = some p ∧ c.kind ≠ .unknown ∧
        accepted (.ofOption option) source p = false ∧
        f = failureAt (.ofOption option) p.start.toNat (gapOf source p).width := by
  obtain ⟨-, hsource, -⟩ := SourceFile.parse_eq_ok h
  rw [check_eq, hsource, List.mem_filterMap]
  refine exists_congr fun c ↦ and_congr_right fun hc ↦ ?_
  cases hp : c.colon? with
  | none => simp [check?, site?, hp]
  | some p =>
    obtain ⟨closed, colon, rfl, hpasses, hcolon⟩ := SourceFile.exists_passes_of_colon? h hc hp
    have hle := hpasses.start_le
    have hlt : colon < source.length := (List.getElem?_eq_some_iff.1 hcolon).1
    rw [check?_of_colon? hp (by simp) (by simp; omega) (by simp; omega)]
    split
    case isTrue hnone =>
      refine iff_of_false (by simp) ?_
      rintro ⟨p, hp, hkind, hbad, -⟩
      obtain rfl := Option.some.inj hp
      simp [hkind, hbad] at hnone
    case isFalse hsome =>
      rw [Bool.or_eq_true, not_or, beq_iff_eq, Bool.not_eq_true] at hsome
      constructor
      · intro hf
        exact ⟨_, rfl, hsome.1, hsome.2, (Option.some.inj hf).symm⟩
      · rintro ⟨p, hp, -, -, rfl⟩
        obtain rfl := Option.some.inj hp
        rfl

/-- The fixes that the rule proposes for a script. -/
theorem mem_fixes_check (h : SourceFile.parse name source = .ok file) {option : OptionValue}
    {r : Replacement} : r ∈ (check file option).filterMap (·.fix) ↔
      ∃ c ∈ file.constructs, ∃ p, c.colon? = some p ∧ c.kind ≠ .unknown ∧
        accepted (.ofOption option) source p = false ∧
        r = replacementOf (.ofOption option) source p := by
  have hstart : ∀ {c : Construct} {p : Part}, c ∈ file.constructs → c.colon? = some p →
      0 ≤ p.start := by
    intro c p hc hp
    obtain ⟨closed, colon, rfl, -⟩ := SourceFile.exists_passes_of_colon? h hc hp
    exact Int.natCast_nonneg closed
  rw [List.mem_filterMap]
  constructor
  · rintro ⟨f, hf, hr⟩
    obtain ⟨c, hc, p, hp, hkind, hbad, rfl⟩ := (mem_check h).1 hf
    rw [fix_failureAt (hstart hc hp)] at hr
    exact ⟨c, hc, p, hp, hkind, hbad, (Option.some.inj hr).symm⟩
  · rintro ⟨c, hc, p, hp, hkind, hbad, rfl⟩
    exact ⟨_, (mem_check h).2 ⟨c, hc, p, hp, hkind, hbad, rfl⟩, fix_failureAt (hstart hc hp)⟩

/-- What the rule proposes for a script is harmless. -/
theorem harmless_of_mem_check (h : SourceFile.parse name source = .ok file) {option : OptionValue}
    {f : Failure} (hf : f ∈ check file option) {r : Replacement} (hr : f.fix = some r) :
    Fix.Harmless source r := by
  obtain ⟨c, hc, p, hp, -, hbad, rfl⟩ :=
    (mem_fixes_check h).1 (List.mem_filterMap.2 ⟨f, hf, hr⟩)
  obtain ⟨closed, colon, rfl, hpasses, hcolon⟩ := SourceFile.exists_passes_of_colon? h hc hp
  rw [accepted, Bool.or_eq_false_iff, gapOf_colon hpasses.start_le hcolon] at hbad
  have hstops := hpasses.starts_drop_measure hcolon
  rw [replacementOf, gapOf_colon hpasses.start_le hcolon]
  refine ⟨by simp, by simp, ⟨_, rfl⟩, hpasses.starts hcolon, hstops, ?_⟩
  have hsolid := GapRun.solid_take_measure hbad.1 (by rwa [List.drop_drop])
  rw [Bytes.slice]
  simpa only [← Int.natCast_add, Int.toNat_natCast, Nat.add_sub_cancel_left] using hsolid

end Rule.BeforeColon

namespace Lint

variable {name source : Bytes} {file : SourceFile} {settings : List Setting} {fixed : Fixed}

/-- The failures of a file are those that the rules report, stamped. -/
theorem mem_run {f : Failure} : f ∈ run file settings ↔
    ∃ s ∈ settings, ∃ g ∈ s.rule.check file s.option, stamp file s g = f := by
  simp only [run, mem_sortBy, List.mem_flatMap, List.mem_map]

/-- Stamping a failure and sorting it in leave its fix as it is. -/
theorem harmless_of_mem_run (h : SourceFile.parse name source = .ok file)
    (hsettings : ∀ s ∈ settings, s.rule = Rule.BeforeColon.rule) {f : Failure}
    (hf : f ∈ run file settings) {r : Replacement} (hr : f.fix = some r) :
    Fix.Harmless source r := by
  obtain ⟨s, hs, g, hg, rfl⟩ := mem_run.1 hf
  rw [hsettings s hs] at hg
  exact Rule.BeforeColon.harmless_of_mem_check h hg hr

/-- Each pass keeps what is solid, so all passes do. -/
theorem fixPasses_solid (hsettings : ∀ s ∈ settings, s.rule = Rule.BeforeColon.rule)
    {failures : List Failure}
    (hfailures : ∀ f ∈ failures, ∀ r, f.fix = some r → Fix.Harmless source r) {passes : Nat}
    (h : fixPasses name settings passes source failures = .ok fixed) :
    solid fixed.output = solid source := by
  induction passes generalizing source failures fixed with
  | zero =>
    obtain rfl := Except.ok.inj h
    rfl
  | succ passes ih =>
    rw [fixPasses] at h
    dsimp only at h
    have hpass := Fix.apply_solid hfailures
    split at h
    case isTrue =>
      obtain rfl := Except.ok.inj h
      rfl
    case isFalse =>
      split at h
      case h_1 => cases h
      case h_2 next hnext =>
        have hagain : ∀ f ∈ run next settings, ∀ r, f.fix = some r →
            Fix.Harmless (Fix.apply source failures).output r :=
          fun f hf r ↦ harmless_of_mem_run hnext hsettings hf
        split at h
        case isTrue =>
          obtain rfl := Except.ok.inj h
          exact hpass
        case isFalse =>
          split at h
          case h_1 => cases h
          case h_2 rest hrest =>
            obtain rfl := Except.ok.inj h
            exact (ih hagain hrest).trans hpass

/-- **Fixing keeps the ink and the lines.** Whatever the passes of fixing make of a script under
settings of the rule on gaps, it is the same without its blanks, and it has the same line breaks. -/
theorem fixAll_ink (h : SourceFile.parse name source = .ok file)
    (hsettings : ∀ s ∈ settings, s.rule = Rule.BeforeColon.rule)
    (hfixed : fixAll file settings (run file settings) = .ok fixed) :
    ink fixed.output = ink source ∧ lineBreaks fixed.output = lineBreaks source := by
  obtain ⟨-, hsource, -⟩ := SourceFile.parse_eq_ok h
  rw [fixAll, hsource] at hfixed
  have hsolid := fixPasses_solid hsettings (fun f hf r ↦ harmless_of_mem_run h hsettings hf) hfixed
  rw [ink_eq, ink_eq, lineBreaks_eq, lineBreaks_eq, hsolid]
  exact ⟨rfl, rfl⟩

/-- The key of the first entry is recorded too long, so the gap that is fixed lies in a string. -/
theorem fixAll_ink_string :
    let source := utf8 "x = \x7b[aaé]: \" :\",\r\n b\u00a0\t: 2\x7d"
    let settings : List Setting := [⟨Rule.BeforeColon.rule, Severity.error, .text (utf8 "nospace")⟩]
    ∃ file fixed, SourceFile.parse (utf8 "a.js") source = .ok file ∧
      (∀ s ∈ settings, s.rule = Rule.BeforeColon.rule) ∧
      fixAll file settings (run file settings) = .ok fixed ∧
      fixed.output = utf8 "x = \x7b[aaé]: \":\",\r\n b: 2\x7d" ∧
      ink fixed.output = ink source ∧ lineBreaks fixed.output = lineBreaks source := by
  intro source settings
  have hsettings : ∀ s ∈ settings, s.rule = Rule.BeforeColon.rule := by simp [settings]
  have hout : ((SourceFile.parse (utf8 "a.js") source).toOption.bind fun file ↦
      (fixAll file settings (run file settings)).toOption.map (·.output))
        = some (utf8 "x = \x7b[aaé]: \":\",\r\n b: 2\x7d") := by decide +kernel
  cases hfile : SourceFile.parse (utf8 "a.js") source with
  | error e => simp [hfile, Except.toOption] at hout
  | ok file =>
    cases hfixed : fixAll file settings (run file settings) with
    | error e => simp [hfile, hfixed, Except.toOption] at hout
    | ok fixed =>
      refine ⟨file, fixed, rfl, hsettings, hfixed, ?_, fixAll_ink hfile hsettings hfixed⟩
      simpa [hfile, hfixed, Except.toOption] using hout

end Lint

end ColonGap
