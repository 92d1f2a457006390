import ColonGap.Rule.BeforeColon
import ColonGap.Proofs.Characters
import ColonGap.Proofs.Choices
import Mathlib.Data.List.Pairwise

/-!
# Fixing the gaps before colons

A file whose colons lie apart from each other is fixed in one go: no replacement is skipped, and
what the rule finds in the fixed text at the places the colons have moved to is nothing.

## Why one go is enough

Every replacement lies inside the part of its colon and starts where that part starts
(`check?_eq_some`), so replacements of different colons are apart as the colons are. For one
colon this leaves two cases: no replacement starts there, and its part is copied; or exactly one
does, and the part becomes the new blanks followed by what stood behind the old gap. In the
second case the rest starts with no blank (`measure_drop_width`), so the new gap is the new
blanks and nothing else.
-/

namespace ColonGap

/-! ### Measuring a gap -/

namespace GapRun

/-- A blank in front of others makes a gap wider, and any other character ends it. -/
theorem measure_cons (b : UInt8) (rest : Bytes) :
    measure (b :: rest)
      = if isBlank (Utf8.ofLead b rest).code then
          let run := measure (rest.drop ((Utf8.ofLead b rest).width - 1))
          ⟨(Utf8.ofLead b rest).width + run.width, run.length + 1,
            isLineBreak (Utf8.ofLead b rest).code || run.lineBreak⟩
        else ⟨0, 0, false⟩ := by
  rw [measure, Utf8.scalars_cons, ofScalars]
  rfl

/-- A gap is no wider than the text. -/
theorem width_measure_le (s : Bytes) : (measure s).width ≤ s.length := by
  induction s using Utf8.glyph_induction with
  | nil => exact Nat.zero_le _
  | cons b rest ih =>
    have hpos := Utf8.one_le_width_ofLead b rest
    have hle := Utf8.width_ofLead_le b rest
    rw [List.length_drop] at ih
    rw [measure_cons]
    split
    · simp only [List.length_cons]
      omega
    · exact Nat.zero_le _

/-- Behind a gap there is no gap. -/
theorem measure_drop_width (s : Bytes) : measure (s.drop (measure s).width) = ⟨0, 0, false⟩ := by
  induction s using Utf8.glyph_induction with
  | nil => rfl
  | cons b rest ih =>
    obtain ⟨n, hn⟩ := Nat.exists_eq_add_of_le' (Utf8.one_le_width_ofLead b rest)
    rw [measure_cons]
    split
    case isTrue hblank =>
      rw [hn, Nat.add_sub_cancel] at ih ⊢
      simp only [Nat.add_right_comm n 1, List.drop_succ_cons]
      rwa [← List.drop_drop]
    case isFalse hblank => rw [List.drop_zero, measure_cons, if_neg hblank]

/-- Spaces in front of a text lengthen its gap and add no line break. -/
theorem measure_replicate_append (n : Nat) (s : Bytes) :
    measure (List.replicate n 32 ++ s)
      = ⟨n + (measure s).width, (measure s).length + n, (measure s).lineBreak⟩ := by
  induction n with
  | zero => simp
  | succ n ih =>
    rw [List.replicate_succ, List.cons_append, measure_cons, Utf8.ofLead_of_lt (by decide)]
    rw [Nat.sub_self, List.drop_zero, ih]
    simp only [show isBlank (UInt8.toNat 32) = true by decide, if_true,
      show isLineBreak (UInt8.toNat 32) = false by decide, Bool.false_or, GapRun.mk.injEq,
      and_true]
    omega

end GapRun

theorem Policy.accepts_fixedLength (policy : Policy) :
    policy.accepts policy.fixedLength = true := by
  cases policy <;> rfl

namespace Construct

/-- A construct with every offset sent through `g`. -/
def moved (g : Int → Int) (c : Construct) : Construct :=
  { c with
    start := g c.start
    stop := g c.stop
    parts := c.parts.map fun p ↦ { p with start := g p.start, stop := g p.stop } }

@[simp] theorem moved_kind (g : Int → Int) (c : Construct) : (c.moved g).kind = c.kind := rfl

/-- The colon of a construct moves along with its offsets. -/
theorem colon?_moved (g : Int → Int) (c : Construct) :
    (c.moved g).colon?
      = c.colon?.map fun p ↦ { p with start := g p.start, stop := g p.stop } := by
  rw [colon?, colon?, moved, List.find?_map]
  rfl

end Construct

namespace SourceFile

/-- The colons of the constructs. -/
def colons (f : SourceFile) : List Part :=
  f.constructs.filterMap Construct.colon?

/-- The colons lie in the source, are not empty, and lie apart from each other. -/
structure ColonsApart (f : SourceFile) : Prop where
  bounds : ∀ p ∈ f.colons, 0 ≤ p.start ∧ p.start < p.stop ∧ p.stop ≤ f.source.length
  apart : f.colons.Pairwise fun p q ↦ p.stop ≤ q.start ∨ q.stop ≤ p.start

theorem mem_colons {f : SourceFile} {c : Construct} {p : Part} (hc : c ∈ f.constructs)
    (hp : c.colon? = some p) : p ∈ f.colons :=
  List.mem_filterMap.2 ⟨c, hc, hp⟩

/-- Two colons are the same or lie apart. -/
theorem ColonsApart.eq_or_apart {f : SourceFile} (h : f.ColonsApart) {p q : Part}
    (hp : p ∈ f.colons) (hq : q ∈ f.colons) :
    p = q ∨ p.stop ≤ q.start ∨ q.stop ≤ p.start := by
  have : Std.Symm fun p q : Part ↦ p = q ∨ p.stop ≤ q.start ∨ q.stop ≤ p.start :=
    ⟨fun _ _ hab ↦ hab.imp Eq.symm Or.symm⟩
  have hall : f.colons.Pairwise fun p q ↦ p = q ∨ p.stop ≤ q.start ∨ q.stop ≤ p.start :=
    h.apart.imp Or.inr
  refine hall.forall_of_forall ?_ hp hq
  exact fun _ _ ↦ Or.inl rfl

end SourceFile

namespace Rule.BeforeColon

/-! ### The replacement of a colon -/

/-- The gap in the part of a colon. -/
def gapOf (source : Bytes) (p : Part) : GapRun :=
  GapRun.measure (source.slice p.start.toNat p.stop.toNat)

/-- Whether the gap in the part of a colon is accepted. -/
def accepted (policy : Policy) (source : Bytes) (p : Part) : Bool :=
  (gapOf source p).lineBreak || policy.accepts (gapOf source p).length

/-- What a gap is replaced with. -/
def replacementOf (policy : Policy) (source : Bytes) (p : Part) : Replacement :=
  ⟨p.start, p.start + (gapOf source p).width, List.replicate policy.fixedLength 32⟩

/-- What is replaced for a colon lies in front of the end of its part. -/
theorem replacementOf_stop_le {policy : Policy} {source : Bytes} {p : Part} (hstart : 0 ≤ p.start)
    (hle : p.start ≤ p.stop) (hstop : p.stop ≤ source.length) :
    (replacementOf policy source p).stop ≤ p.stop := by
  have hwidth := GapRun.width_measure_le (source.slice p.start.toNat p.stop.toNat)
  rw [Bytes.length_slice (by omega)] at hwidth
  simp only [replacementOf, gapOf]
  omega

theorem site?_of_colon? {c : Construct} {source : Bytes} {p : Part} (hp : c.colon? = some p)
    (hstart : 0 ≤ p.start) (hle : p.start ≤ p.stop) (hstop : p.stop ≤ source.length) :
    site? c source = some (p.start.toNat, p.stop.toNat) := by
  simp [site?, hp, hstart, hle, hstop]

/-- What the check of a construct whose colon lies in the source comes down to. -/
theorem check?_of_colon? {c : Construct} {source : Bytes} {policy : Policy} {p : Part}
    (hp : c.colon? = some p) (hstart : 0 ≤ p.start) (hle : p.start ≤ p.stop)
    (hstop : p.stop ≤ source.length) :
    check? c source policy
      = if c.kind == .unknown || accepted policy source p then none
        else some (failureAt policy p.start.toNat (gapOf source p).width) := by
  rw [check?, site?_of_colon? hp hstart hle hstop]
  by_cases hkind : c.kind == .unknown
  · simp [hkind]
  · simp only [hkind, Bool.false_eq_true, if_false, Bool.false_or]
    rfl

/-- A failure of a construct mends the gap before its colon, and that gap is not accepted. -/
theorem check?_eq_some {f : SourceFile} (h : f.ColonsApart) {policy : Policy} {c : Construct}
    (hc : c ∈ f.constructs) {φ : Failure} (hφ : check? c f.source policy = some φ) :
    ∃ p ∈ f.colons, c.colon? = some p ∧ accepted policy f.source p = false ∧
      φ.fix = some (replacementOf policy f.source p) := by
  cases hp : c.colon? with
  | none => simp [check?, site?, hp] at hφ
  | some p =>
    have hmem := SourceFile.mem_colons hc hp
    obtain ⟨hstart, hlt, hstop⟩ := h.bounds p hmem
    rw [check?_of_colon? hp hstart hlt.le hstop] at hφ
    split at hφ
    · simp at hφ
    case isFalse hbad =>
      rw [Bool.or_eq_true, not_or, Bool.not_eq_true, Bool.not_eq_true] at hbad
      obtain rfl := (Option.some.inj hφ).symm
      refine ⟨p, hmem, rfl, hbad.2, ?_⟩
      have hnat : (p.start.toNat : Int) = p.start := Int.toNat_of_nonneg hstart
      simp [failureAt, Failure.ofRange, replacementOf, hnat]

/-- The replacements of a file come from its colons. -/
theorem fix_check {f : SourceFile} (h : f.ColonsApart) {policy : Policy} {r : Replacement}
    (hr : r ∈ (f.constructs.filterMap fun c ↦ check? c f.source policy).filterMap (·.fix)) :
    ∃ p ∈ f.colons, accepted policy f.source p = false ∧
      r = replacementOf policy f.source p := by
  obtain ⟨φ, hφ, hfix⟩ := List.mem_filterMap.1 hr
  obtain ⟨c, hc, hφ⟩ := List.mem_filterMap.1 hφ
  obtain ⟨p, hp, -, hbad, hfix'⟩ := check?_eq_some h hc hφ
  exact ⟨p, hp, hbad, Option.some.inj (hfix.symm.trans hfix')⟩

/-- The replacements of colons that lie apart lie apart. -/
theorem pairwise_apart_fix_check {f : SourceFile} (h : f.ColonsApart) (policy : Policy) :
    ((f.constructs.filterMap fun c ↦ check? c f.source policy).filterMap (·.fix)).Pairwise
      Fix.Apart := by
  rw [List.pairwise_filterMap, List.pairwise_filterMap]
  have hapart := h.apart
  rw [SourceFile.colons, List.pairwise_filterMap] at hapart
  refine hapart.imp_of_mem fun {c d} hc hd hcd φ hφ ψ hψ r hr s hs ↦ ?_
  obtain ⟨p, hp, hcp, -, hfix⟩ := check?_eq_some h hc hφ
  obtain ⟨q, hq, hdq, -, hfix'⟩ := check?_eq_some h hd hψ
  obtain rfl := Option.some.inj (hr.symm.trans hfix)
  obtain rfl := Option.some.inj (hs.symm.trans hfix')
  have hpq := hcd p hcp q hdq
  obtain ⟨hp, hplt, hple⟩ := h.bounds p hp
  obtain ⟨hq, hqlt, hqle⟩ := h.bounds q hq
  have hpstop := @replacementOf_stop_le policy _ _ hp hplt.le hple
  have hqstop := @replacementOf_stop_le policy _ _ hq hqlt.le hqle
  refine ⟨?_, ?_⟩
  · show (replacementOf policy f.source p).stop ≤ q.start ∨
      (replacementOf policy f.source q).stop ≤ p.start
    omega
  · show p.start ≠ q.start
    omega

/-- A policy that is disabled checks nothing. -/
theorem check?_disabled (c : Construct) (source : Bytes) : check? c source .disabled = none := by
  rw [check?]
  split
  · rfl
  · split
    · rfl
    · simp [Policy.accepts]

/-- A disabled policy accepts every gap, so it needs no case of its own. -/
theorem check_eq (f : SourceFile) (option : OptionValue) :
    check f option
      = f.constructs.filterMap fun c ↦ check? c f.source (Policy.ofOption option) := by
  rw [check]
  split
  case h_1 hpolicy =>
    rw [hpolicy, eq_comm, List.filterMap_eq_nil_iff]
    exact fun c _ ↦ check?_disabled c f.source
  · rfl

/-- The fixes of a file whose colons lie apart are all applied, and they are the replacements of
the colons that are not accepted. -/
theorem apply_check {f : SourceFile} (h : f.ColonsApart) (option : OptionValue) :
    ∃ rs : List Replacement,
      (∀ r ∈ rs, ∃ q ∈ f.colons, r = replacementOf (Policy.ofOption option) f.source q) ∧
        (∀ c ∈ f.constructs, ∀ φ, check? c f.source (Policy.ofOption option) = some φ →
          ∀ r, φ.fix = some r → r ∈ rs) ∧
        rs.Pairwise Fix.Before ∧
        (Fix.apply f.source (check f option)).output = Fix.patch f.source 0 rs ∧
        (Fix.apply f.source (check f option)).applied.filterMap (·.fix) = rs ∧
        (Fix.apply f.source (check f option)).skipped = [] := by
  have hin : ∀ r ∈ (check f option).filterMap (·.fix), Fix.inRange f.source.length r = true := by
    intro r hr
    rw [check_eq] at hr
    obtain ⟨p, hp, -, rfl⟩ := fix_check h hr
    obtain ⟨hstart, hlt, hstop⟩ := h.bounds p hp
    have hle := @replacementOf_stop_le (Policy.ofOption option) _ _ hstart hlt.le hstop
    refine Fix.inRange_iff.2 ⟨hstart, ?_, hle.trans hstop⟩
    exact le_add_of_nonneg_right (Int.natCast_nonneg _)
  have hapart : ((check f option).filterMap (·.fix)).Pairwise Fix.Apart := by
    rw [check_eq]
    exact pairwise_apart_fix_check h _
  obtain ⟨rs, hperm, hbefore, -, houtput, happlied, hskipped⟩ := Fix.apply_of_apart hin hapart
  refine ⟨rs, fun r hr ↦ ?_, fun c hc φ hφ r hr ↦ ?_, hbefore, houtput, happlied, hskipped⟩
  · have hr := hperm.mem_iff.1 hr
    rw [check_eq] at hr
    obtain ⟨p, hp, -, hr⟩ := fix_check h hr
    exact ⟨p, hp, hr⟩
  · refine hperm.mem_iff.2 (List.mem_filterMap.2 ⟨φ, ?_, hr⟩)
    rw [check_eq]
    exact List.mem_filterMap.2 ⟨c, hc, hφ⟩

/-! ### The text at a moved colon -/

section Moved

variable {f : SourceFile} {policy : Policy} {rs : List Replacement}

/-- The replacements that start in the part of a colon: the one of that colon, or none. -/
theorem starts_in_colon (h : f.ColonsApart) (hbefore : rs.Pairwise Fix.Before)
    (hrs : ∀ r ∈ rs, ∃ q ∈ f.colons, r = replacementOf policy f.source q) {p : Part}
    (hp : p ∈ f.colons) (hin : ∀ r ∈ rs, p.start ≤ r.start ∧ r.start < p.stop) :
    rs = [] ∨ rs = [replacementOf policy f.source p] := by
  have hone : ∀ r ∈ rs, r = replacementOf policy f.source p := fun r hr ↦ by
    obtain ⟨q, hq, rfl⟩ := hrs r hr
    have hin : p.start ≤ q.start ∧ q.start < p.stop := hin _ hr
    obtain ⟨-, hlt, -⟩ := h.bounds q hq
    obtain rfl | hapart := h.eq_or_apart hp hq
    · rfl
    · omega
  match rs, hone with
  | [], _ => exact .inl rfl
  | [r], hone => exact .inr (by rw [hone r (by simp)])
  | r :: s :: _, hone =>
    -- Two of them would start at the same offset.
    have hlt := (List.pairwise_cons.1 hbefore).1 s (by simp)
    rw [hone r (by simp), hone s (by simp)] at hlt
    exact absurd hlt.1 (lt_irrefl _)

/-- Where the part of a colon goes to, and what stands there: the part itself, or the new blanks
and what stood behind the old ones. -/
theorem slice_colon (h : f.ColonsApart) (hbefore : rs.Pairwise Fix.Before)
    (hrs : ∀ r ∈ rs, ∃ q ∈ f.colons, r = replacementOf policy f.source q) {p : Part}
    (hp : p ∈ f.colons) :
    ∃ i j : Nat, Fix.shift rs p.start = i ∧ Fix.shift rs p.stop = j ∧ i ≤ j ∧
      j ≤ (Fix.patch f.source 0 rs).length ∧
      (Fix.patch f.source 0 rs).slice i j
        = if replacementOf policy f.source p ∈ rs then
            List.replicate policy.fixedLength 32
              ++ (f.source.slice p.start.toNat p.stop.toNat).drop (gapOf f.source p).width
          else f.source.slice p.start.toNat p.stop.toNat := by
  obtain ⟨hpstart, hplt, hpstop⟩ := h.bounds p hp
  have hbounds : ∀ r ∈ rs, 0 ≤ r.start ∧ r.start ≤ r.stop ∧ r.stop ≤ f.source.length ∧
      (r.start < p.start → r.stop ≤ p.start) ∧ (r.start < p.stop → r.stop ≤ p.stop) := fun r hr ↦ by
    obtain ⟨q, hq, rfl⟩ := hrs r hr
    obtain ⟨hqstart, hqlt, hqstop⟩ := h.bounds q hq
    have hle := @replacementOf_stop_le policy _ _ hqstart hqlt.le hqstop
    have hge : (replacementOf policy f.source q).start ≤ (replacementOf policy f.source q).stop :=
      le_add_of_nonneg_right (Int.natCast_nonneg _)
    have hstart : (replacementOf policy f.source q).start = q.start := rfl
    rw [hstart] at hge ⊢
    refine ⟨hqstart, hge, hle.trans hqstop, fun hlt ↦ ?_, fun hlt ↦ ?_⟩ <;>
      obtain rfl | hapart := h.eq_or_apart hp hq <;> omega
  -- Cut the replacements where the part starts and where it stops.
  obtain ⟨before, rest, rfl, hbefore', hrest⟩ := Fix.exists_split hbefore p.start
  obtain ⟨hpairs, hpairs', hacross⟩ := List.pairwise_append.1 hbefore
  obtain ⟨middle, after, rfl, hmiddle', hafter'⟩ := Fix.exists_split hpairs' p.stop
  obtain ⟨hpairsm, hpairsa, -⟩ := List.pairwise_append.1 hpairs'
  have hfitsb : Fix.Fits 0 p.start.toNat before := by
    refine Fix.fits_of_pairwise (hpairs.imp And.right) (Nat.zero_le _) fun r hr ↦ ?_
    obtain ⟨h0, hle, -, hcut, -⟩ := hbounds r (by simp [hr])
    have := hcut (hbefore' r hr)
    omega
  have hfitsm : Fix.Fits p.start.toNat p.stop.toNat middle := by
    refine Fix.fits_of_pairwise (hpairsm.imp And.right) (by omega) fun r hr ↦ ?_
    obtain ⟨-, hle, -, -, hcut⟩ := hbounds r (by simp [hr])
    have := hcut (hmiddle' r hr)
    have := hrest r (by simp [hr])
    omega
  have hfitsa : Fix.Fits p.stop.toNat f.source.length after := by
    refine Fix.fits_of_pairwise (hpairsa.imp And.right) (by omega) fun r hr ↦ ?_
    obtain ⟨-, hle, hstop, -⟩ := hbounds r (by simp [hr])
    have := hafter' r hr
    omega
  obtain ⟨i, j, hi, hj, hij, hlength, hslice⟩ := Fix.slice_patch hfitsb hfitsm hfitsa
    (fun r hr ↦ by have := hbefore' r hr; omega)
    (fun r hr ↦ by have := hrest r (by simp [hr]); have := hmiddle' r hr; omega)
    (fun r hr ↦ by have := hafter' r hr; omega)
  rw [Int.toNat_of_nonneg hpstart] at hi
  rw [Int.toNat_of_nonneg (by omega)] at hj
  refine ⟨i, j, hi, hj, hij, hlength, ?_⟩
  -- The replacement of the colon can only be among those in the middle.
  have hmem : replacementOf policy f.source p ∈ before ++ (middle ++ after)
      ↔ replacementOf policy f.source p ∈ middle := by
    constructor
    · intro hr
      rcases List.mem_append.1 hr with hr | hr
      · exact absurd (hbefore' _ hr) (lt_irrefl _)
      · rcases List.mem_append.1 hr with hr | hr
        · exact hr
        · exact absurd (hafter' _ hr) (not_le.2 hplt)
    · exact fun hr ↦ by simp [hr]
  rw [hslice]
  rcases starts_in_colon h hpairsm (fun r hr ↦ hrs r (by simp [hr])) hp
      (fun r hr ↦ ⟨hrest r (by simp [hr]), hmiddle' r hr⟩) with rfl | rfl
  · rw [if_neg (by rw [hmem]; simp), Fix.patch, Bytes.drop_take_eq_slice]
  · rw [if_pos (by rw [hmem]; simp)]
    have hstop : (replacementOf policy f.source p).stop.toNat
        = p.start.toNat + (gapOf f.source p).width := by
      simp only [replacementOf]
      omega
    rw [Fix.patch, Fix.patch, hstop, Bytes.drop_take_eq_slice, Bytes.drop_slice]
    simp [replacementOf, Bytes.slice]

/-- A construct is in order after the fix, at the place its colon has moved to. -/
theorem check?_moved (h : f.ColonsApart) (hbefore : rs.Pairwise Fix.Before)
    (hrs : ∀ r ∈ rs, ∃ q ∈ f.colons, r = replacementOf policy f.source q) {c : Construct}
    (hc : c ∈ f.constructs)
    (hown : ∀ p, c.colon? = some p → c.kind ≠ .unknown → accepted policy f.source p = false →
      replacementOf policy f.source p ∈ rs) :
    check? (c.moved (Fix.shift rs)) (Fix.patch f.source 0 rs) policy = none := by
  cases hp : c.colon? with
  | none => simp [check?, site?, Construct.colon?_moved, hp]
  | some p =>
    obtain ⟨i, j, hi, hj, hij, hlength, hslice⟩ :=
      slice_colon h hbefore hrs (SourceFile.mem_colons hc hp)
    have hmoved := Construct.colon?_moved (Fix.shift rs) c
    rw [hp, Option.map_some, hi, hj] at hmoved
    rw [check?_of_colon? hmoved (by simp) (by simpa using hij) (by simpa using hlength)]
    refine if_pos ?_
    rw [Bool.or_eq_true, Construct.moved_kind, beq_iff_eq]
    by_cases hkind : c.kind = .unknown
    · exact .inl hkind
    right
    rw [accepted, gapOf]
    simp only [Int.toNat_natCast]
    rw [hslice]
    split
    · -- The gap was replaced: what is left behind it has no gap of its own.
      rw [GapRun.measure_replicate_append, gapOf, GapRun.measure_drop_width]
      simp [Policy.accepts_fixedLength]
    case isFalse hnot =>
      -- The gap was left alone, so it had been accepted.
      exact Bool.not_eq_false _ |>.mp fun hbad ↦ hnot (hown p hp hkind hbad)

end Moved

/-- **Fixing once is enough.** If the colons of a file lie apart, then no fix is skipped, and the
rule finds nothing in the fixed text when every construct is moved along with it. -/
theorem check_moved (f : SourceFile) (option : OptionValue) (h : f.ColonsApart) :
    let outcome := Fix.apply f.source (check f option)
    let rs := outcome.applied.filterMap (·.fix)
    outcome.skipped = [] ∧
      check { SourceFile.ofSource f.name outcome.output with
        constructs := f.constructs.map (·.moved (Fix.shift rs)) } option = [] := by
  intro outcome rs
  obtain ⟨rs', hrs, hall, hbefore, houtput, happlied, hskipped⟩ := apply_check h option
  refine ⟨hskipped, ?_⟩
  rw [check_eq, List.filterMap_eq_nil_iff]
  intro c' hc'
  obtain ⟨c, hc, rfl⟩ := List.mem_map.1 hc'
  show check? (c.moved (Fix.shift (outcome.applied.filterMap (·.fix)))) outcome.output _ = none
  rw [houtput, happlied]
  refine check?_moved h hbefore hrs hc fun p hp hkind hbad ↦ ?_
  obtain ⟨hstart, hlt, hstop⟩ := h.bounds p (SourceFile.mem_colons hc hp)
  have hcheck := @check?_of_colon? _ _ (Policy.ofOption option) _ hp hstart hlt.le hstop
  rw [if_neg (by simp [hkind, hbad])] at hcheck
  obtain ⟨q, -, hq, -, hfix⟩ := check?_eq_some h hc hcheck
  obtain rfl := Option.some.inj (hp.symm.trans hq)
  exact hall c hc _ hcheck _ hfix

/-- Two colons, listed out of order. -/
def twoColons : SourceFile :=
  { SourceFile.ofSource (utf8 "f.js") (utf8 "x = {a: 1, b   : 2}") with
    constructs :=
      [⟨.propertyAssignment, 11, 18, [⟨.colon, 12, 16⟩]⟩,
        ⟨.propertyAssignment, 5, 9, [⟨.colon, 6, 7⟩]⟩] }

/-- The first gap is one blank too short and the second is two blanks too long. -/
theorem check_moved_twoColons :
    let outcome := Fix.apply twoColons.source (check twoColons (.text (utf8 "onespace")))
    let rs := outcome.applied.filterMap (·.fix)
    outcome.output = utf8 "x = {a : 1, b : 2}" ∧ outcome.skipped = [] ∧
      check { SourceFile.ofSource twoColons.name outcome.output with
        constructs := twoColons.constructs.map (·.moved (Fix.shift rs)) }
          (.text (utf8 "onespace")) = [] := by
  have h : twoColons.ColonsApart := ⟨by decide, by decide⟩
  exact ⟨by decide, check_moved twoColons (.text (utf8 "onespace")) h⟩

end Rule.BeforeColon

end ColonGap
