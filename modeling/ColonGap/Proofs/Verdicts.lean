import ColonGap.Proofs.Items

/-!
# What the check of a construct decides

Whether a construct fails depends on the blanks that the part of its colon starts with. Which blanks
these are is said here without reading characters one after the other: they are a list of blanks
whose text starts the part, and no such list has a longer text (`LeadsWith`).

Measuring a text finds them. A text that starts with blanks is measured as these blanks and what is
measured behind them (`measure_written_append`), so no list of blanks is longer than what is
measured, and what is measured is such a list. The rest is a case for each policy
(`check?_decides`).
-/

namespace ColonGap

/-! ### The blanks a text starts with -/

/-- The text of some characters. -/
def written (cs : List Nat) : Bytes :=
  cs.flatMap Utf8.encode

@[simp] theorem written_nil : written [] = [] := rfl

theorem written_cons (c : Nat) (cs : List Nat) : written (c :: cs) = Utf8.encode c ++ written cs :=
  rfl

theorem written_append (cs ds : List Nat) : written (cs ++ ds) = written cs ++ written ds :=
  List.flatMap_append

/-- The text starts with the given blanks, and with no blanks that take more bytes. Bytes that are
no whole character are no blank. -/
structure LeadsWith (text : Bytes) (blanks : List Nat) : Prop where
  blank : ∀ c ∈ blanks, isBlank c = true
  starts : written blanks <+: text
  longest : ∀ cs, (∀ c ∈ cs, isBlank c = true) → written cs <+: text →
    (written cs).length ≤ (written blanks).length

namespace GapRun

/-- Blanks in front of a text are measured as what they are. -/
theorem measure_written_append {blanks : List Nat} (h : ∀ c ∈ blanks, isBlank c = true)
    (rest : Bytes) :
    measure (written blanks ++ rest)
      = ⟨(written blanks).length + (measure rest).width, blanks.length + (measure rest).length,
        blanks.any isLineBreak || (measure rest).lineBreak⟩ := by
  induction blanks with
  | nil => simp
  | cons c blanks ih =>
    obtain ⟨hc, hblanks⟩ := List.forall_mem_cons.1 h
    obtain ⟨b, tails, hencode, hread⟩ :=
      Gap.ofLead_encode_of_isBlank hc (written blanks ++ rest)
    rw [written_cons, hencode, List.append_assoc, List.cons_append, measure_cons, hread, if_pos hc]
    simp only [Nat.add_sub_cancel, List.drop_left, ih hblanks, List.any_cons, List.length_append,
      List.length_cons, Bool.or_assoc, GapRun.mk.injEq, and_true]
    omega

/-- Only a text that starts with no blank has a gap of no bytes. -/
theorem measure_of_width_eq_zero {s : Bytes} (h : (measure s).width = 0) :
    measure s = ⟨0, 0, false⟩ := by
  cases s with
  | nil => rfl
  | cons b rest =>
    have hpos := Utf8.one_le_width_ofLead b rest
    rw [measure_cons] at h ⊢
    split at h
    case isTrue =>
      dsimp only at h
      omega
    case isFalse hblank => rw [if_neg hblank]

/-- A text is some blanks and a text that starts with no blank. -/
theorem exists_written_append (s : Bytes) :
    ∃ blanks rest, s = written blanks ++ rest ∧ (∀ c ∈ blanks, isBlank c = true) ∧
      measure rest = ⟨0, 0, false⟩ := by
  induction s using Utf8.glyph_induction with
  | nil => exact ⟨[], [], rfl, by simp, rfl⟩
  | cons b rest ih =>
    by_cases hblank : isBlank (Utf8.ofLead b rest).code = true
    · obtain ⟨blanks, more, hrest, hblanks, hmore⟩ := ih
      have hcode : (Utf8.ofLead b rest).code ≠ Scalar.replacement := by
        intro hcode
        rw [hcode] at hblank
        exact absurd hblank (by decide)
      refine ⟨(Utf8.ofLead b rest).code :: blanks, more, ?_,
        List.forall_mem_cons.2 ⟨hblank, hblanks⟩, hmore⟩
      rw [written_cons, Utf8.encode_ofLead hcode, List.append_assoc, ← hrest, List.cons_append,
        List.take_append_drop]
    · exact ⟨[], b :: rest, rfl, by simp, by rw [measure_cons, if_neg hblank]⟩

end GapRun

open GapRun in
/-- Every text starts with a longest list of blanks. -/
theorem exists_leadsWith (text : Bytes) : ∃ blanks, LeadsWith text blanks := by
  obtain ⟨blanks, rest, rfl, hblanks, hrest⟩ := exists_written_append text
  refine ⟨blanks, hblanks, List.prefix_append _ _, fun cs hcs ⟨more, hmore⟩ ↦ ?_⟩
  have hmeasure := measure_written_append hcs more
  rw [hmore, measure_written_append hblanks, hrest] at hmeasure
  have hwidth : (written blanks).length + 0 = (written cs).length + (measure more).width :=
    congrArg GapRun.width hmeasure
  omega

/-- **Measuring finds the blanks that a text starts with**: their bytes, how many there are, and
whether a line ends among them. -/
theorem LeadsWith.measure {text : Bytes} {blanks : List Nat} (h : LeadsWith text blanks) :
    GapRun.measure text
      = ⟨(written blanks).length, blanks.length, blanks.any isLineBreak⟩ := by
  obtain ⟨rest, rfl⟩ := h.starts
  have hmeasure := GapRun.measure_written_append h.blank rest
  -- Blanks behind the given ones would make a list of more bytes.
  have hrest : (GapRun.measure rest).width = 0 := by
    obtain ⟨more, last, rfl, hmore, hlast⟩ := GapRun.exists_written_append rest
    have hlonger := h.longest (blanks ++ more) (List.forall_mem_append.2 ⟨h.blank, hmore⟩)
      ⟨last, by rw [written_append, List.append_assoc]⟩
    rw [written_append, List.length_append] at hlonger
    rw [GapRun.measure_written_append hmore, hlast]
    dsimp only
    omega
  rw [hmeasure, GapRun.measure_of_width_eq_zero hrest]
  simp

/-! ### The verdict -/

/-- The lengths of gaps that a policy finds fault with. -/
def Policy.Refuses : Policy → Nat → Prop
  | disabled, _ => False
  | noSpace, n => n ≠ 0
  | someSpace, n => n = 0
  | oneSpace, n | unnamed, n => n ≠ 1

theorem Policy.accepts_eq_false_iff {policy : Policy} {n : Nat} :
    policy.accepts n = false ↔ policy.Refuses n := by
  cases policy <;> simp [accepts, Refuses, fixedLength]

/-- The first part that is a colon. -/
def Construct.FirstColon (c : Construct) (p : Part) : Prop :=
  ∃ before after, c.parts = before ++ p :: after ∧ p.kind = .colon ∧
    ∀ q ∈ before, q.kind ≠ .colon

/-- The colon of a construct is the first part that is one. -/
theorem Construct.colon?_eq_some_iff {c : Construct} {p : Part} :
    c.colon? = some p ↔ c.FirstColon p := by
  rw [colon?, List.find?_eq_some_iff_append, FirstColon]
  simp only [beq_iff_eq, Bool.not_eq_true', beq_eq_false_iff_ne]
  constructor
  · rintro ⟨hp, before, after, hparts, hbefore⟩
    exact ⟨before, after, hparts, hp, hbefore⟩
  · rintro ⟨before, after, hparts, hp, hbefore⟩
    exact ⟨hp, before, after, hparts, hbefore⟩

namespace Rule.BeforeColon

/-- A construct fails if it is of a known kind, its colon lies in the source, and the gap there is
not accepted. -/
theorem check?_eq_some_iff {c : Construct} {source : Bytes} {policy : Policy} {f : Failure} :
    check? c source policy = some f ↔
      c.kind ≠ .unknown ∧ ∃ p, c.colon? = some p ∧
        (0 ≤ p.start ∧ p.start ≤ p.stop ∧ p.stop ≤ source.length) ∧
        accepted policy source p = false ∧
        f = failureAt policy p.start.toNat (gapOf source p).width := by
  constructor
  · intro h
    cases hp : c.colon? with
    | none => simp [check?, site?, hp] at h
    | some p =>
      by_cases hrange : 0 ≤ p.start ∧ p.start ≤ p.stop ∧ p.stop ≤ source.length
      · rw [check?_of_colon? hp hrange.1 hrange.2.1 hrange.2.2] at h
        split at h
        case isTrue => cases h
        case isFalse hbad =>
          rw [Bool.or_eq_true, not_or, beq_iff_eq, Bool.not_eq_true] at hbad
          exact ⟨hbad.1, p, rfl, hrange, hbad.2, (Option.some.inj h).symm⟩
      · simp [check?, site?, hp, and_assoc, hrange] at h
  · rintro ⟨hkind, p, hp, ⟨hstart, hle, hstop⟩, hbad, rfl⟩
    rw [check?_of_colon? hp hstart hle hstop, if_neg (by simp [hkind, hbad])]

section LeadsWith

variable {source : Bytes} {policy : Policy} {p : Part} {blanks : List Nat}

/-- A gap is not accepted exactly if it is refused and holds no line break. -/
theorem accepted_eq_false_iff (h : LeadsWith (source.slice p.start.toNat p.stop.toNat) blanks) :
    accepted policy source p = false ↔
      (∀ b ∈ blanks, isLineBreak b = false) ∧ policy.Refuses blanks.length := by
  rw [accepted, gapOf, h.measure, Bool.or_eq_false_iff, Policy.accepts_eq_false_iff,
    List.any_eq_false]
  simp

/-- A fix leaves one space, or none if that is what the policy asks for. -/
theorem replicate_fixedLength (policy : Policy) :
    List.replicate policy.fixedLength 32 = if policy = .noSpace then [] else utf8 " " := by
  cases policy <;> decide

/-- The failure of a gap spans the blanks, and its fix puts those of the policy. -/
theorem failureAt_gapOf (h : LeadsWith (source.slice p.start.toNat p.stop.toNat) blanks)
    (hstart : 0 ≤ p.start) :
    failureAt policy p.start.toNat (gapOf source p).width
      = .ofRange p.start (p.start + (written blanks).length)
          (utf8 "expected " ++ utf8 policy.name ++ utf8 " before colon")
          (some ⟨p.start, p.start + (written blanks).length,
            if policy = .noSpace then [] else utf8 " "⟩) := by
  rw [failureAt, gapOf, h.measure, replicate_fixedLength, Int.natCast_add,
    Int.toNat_of_nonneg hstart]

end LeadsWith

/-- **What the check decides.** A construct fails exactly if it is an entry of an object or an
element of a pattern, its first colon lies in the source, the blanks there end no line, and there
are not as many of them as the policy asks for. The failure is then where these blanks are, and its
fix puts what the policy asks for in their place. -/
theorem check?_decides (c : Construct) (source : Bytes) (policy : Policy) (f : Failure) :
    check? c source policy = some f ↔
      (c.kind = .propertyAssignment ∨ c.kind = .bindingElement) ∧
        ∃ p, c.FirstColon p ∧ (0 ≤ p.start ∧ p.start ≤ p.stop ∧ p.stop ≤ source.length) ∧
          ∃ blanks, LeadsWith (source.slice p.start.toNat p.stop.toNat) blanks ∧
            (∀ b ∈ blanks, isLineBreak b = false) ∧ policy.Refuses blanks.length ∧
            f = .ofRange p.start (p.start + (written blanks).length)
              (utf8 "expected " ++ utf8 policy.name ++ utf8 " before colon")
              (some ⟨p.start, p.start + (written blanks).length,
                if policy = .noSpace then [] else utf8 " "⟩) := by
  have hkind : c.kind ≠ .unknown ↔ c.kind = .propertyAssignment ∨ c.kind = .bindingElement := by
    cases c.kind <;> simp
  rw [check?_eq_some_iff, hkind]
  refine and_congr_right fun _ ↦ exists_congr fun p ↦ ?_
  rw [Construct.colon?_eq_some_iff]
  refine and_congr_right fun _ ↦ and_congr_right fun hrange ↦ ?_
  constructor
  · rintro ⟨hbad, rfl⟩
    obtain ⟨blanks, hblanks⟩ := exists_leadsWith (source.slice p.start.toNat p.stop.toNat)
    obtain ⟨hbreaks, hrefuses⟩ := (accepted_eq_false_iff hblanks).1 hbad
    exact ⟨blanks, hblanks, hbreaks, hrefuses, failureAt_gapOf hblanks hrange.1⟩
  · rintro ⟨blanks, hblanks, hbreaks, hrefuses, rfl⟩
    exact ⟨(accepted_eq_false_iff hblanks).2 ⟨hbreaks, hrefuses⟩,
      (failureAt_gapOf hblanks hrange.1).symm⟩

/-- A part that ends inside a blank of two bytes starts with no blank, and one that reaches the
colon starts with one. -/
example :
    let construct := fun stop ↦ (⟨.bindingElement, 0, 5, [⟨.colon, 1, stop⟩]⟩ : Construct)
    (check? (construct 2) (utf8 "a\u00a0: b") .someSpace).map (·.stop) = some 1 ∧
      check? (construct 4) (utf8 "a\u00a0: b") .someSpace = none ∧
      (check? (construct 4) (utf8 "a\u00a0: b") .noSpace).map (·.stop) = some 3 := by
  decide

end Rule.BeforeColon

end ColonGap
