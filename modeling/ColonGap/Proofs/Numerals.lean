import ColonGap.Proofs.Extents
import ColonGap.Proofs.Words
import ColonGap.Script.Lexer.Numeral

/-!
# Numerals are read alike on both sides

A numeral is read digit by digit, with a test before each move, and all tests fail where a gap
starts. So both readers move past the same characters, none of which belongs to a gap.

`Reaches` says just that, and leaves open how far the readers have come: what a numeral is made of
follows from the tests, and only the tests know it.
-/

namespace ColonGap.Script

open Piece

variable {z : Respacing} {dirty : Bool} {ps : List Piece} {r r' : Side → Reader}

/-- From `ps` on, both readers have moved past characters that both texts have and that may stand
before a gap. -/
def Reaches (z : Respacing) (dirty : Bool) (ps : List Piece) (r : Side → Reader) : Prop :=
  ∃ (gs : List Glyph) (qs : List Piece) (dirty' : Bool),
    ps = gs.map same ++ qs ∧ (∀ g ∈ gs, mayPrecede g.code = true) ∧
    (dirty = true → dirty' = true) ∧ Paces z dirty' qs r

theorem Paces.reaches (h : Paces z dirty ps r) : Reaches z dirty ps r :=
  ⟨[], ps, dirty, rfl, by simp, id, h⟩

/-- From where readers have come to they go on keeping pace, or are past an error. -/
theorem Reaches.trans (h : Reaches z dirty ps r)
    (h' : ∀ {dirty' qs}, Paces z dirty' qs r → Reaches z dirty' qs r') : Reaches z dirty ps r' := by
  obtain ⟨gs, qs, dirty', rfl, hgs, hle, hpaces⟩ := h
  obtain ⟨gs', qs', dirty'', rfl, hgs', hle', hpaces'⟩ := h' hpaces
  refine ⟨gs ++ gs', qs', dirty'', by simp, ?_, fun hd ↦ hle' (hle hd), hpaces'⟩
  intro g hg
  rcases List.mem_append.1 hg with hg | hg
  · exact hgs g hg
  · exact hgs' g hg

theorem Paces.reaches_step {g : Glyph} (h : Paces z dirty (same g :: ps) r)
    (hg : mayPrecede g.code = true) : Reaches z dirty (same g :: ps) fun i ↦ (r i).step :=
  ⟨[g], ps, _, rfl, by simpa using hg, fun hd ↦ by simp [hd], h.step⟩

/-! ### Tests on the current character -/

/-- A test that fails at stops has the same outcome on both sides. -/
theorem Paces.any_current? (h : Paces z dirty ps r) {p : Nat → Bool}
    (hp : ∀ c ∈ stopCodes, p c = false) (i : Side) :
    (r i).current?.any p = (same? ps).any fun g ↦ p g.code := by
  have hstop : ∀ g : Glyph, g.isStop = true → p g.code = false := by
    intro g hg
    rw [Glyph.isStop_eq] at hg
    exact hp _ (mem_stopCodes hg)
  have hhead := head?_pieces h.valid hstop i
  rw [Reader.current?, (h.stands i).rest, Option.any_map]
  exact hhead

theorem exists_of_same?_any {p : Nat → Bool} (h : ((same? ps).any fun g ↦ p g.code) = true) :
    ∃ g qs, ps = same g :: qs ∧ p g.code = true := by
  match ps, h with
  | same g :: qs, h => exact ⟨g, qs, rfl, by simpa [same?] using h⟩

theorem at?_eq (r : Reader) (code : Nat) : r.at? code = r.current?.any (· == code) := by
  rw [Reader.at?]
  cases r.current? <;> simp

/-- Away from stops, readers that keep pace are at a character on both sides or on neither. -/
theorem Paces.at? (h : Paces z dirty ps r) {code : Nat} (hcode : code ∉ stopCodes) (i : Side) :
    (r i).at? code = (same? ps).any fun g ↦ g.code == code := by
  rw [at?_eq]
  refine h.any_current? (p := (· == code)) ?_ i
  intro c hc
  rw [beq_eq_false_iff_ne]
  rintro rfl
  exact hcode hc

/-- A test of both readers that is a test of their current characters: if it holds, then both move
past a character that passes it. -/
theorem Paces.test (h : Paces z dirty ps r) {p : Nat → Bool} {test : Reader → Bool}
    (htest : ∀ r : Reader, test r = r.current?.any p) (hp : ∀ c ∈ stopCodes, p c = false) :
    (∀ i, test (r i) = false) ∨
      (∀ i, test (r i) = true) ∧ ∃ g qs, ps = same g :: qs ∧ p g.code = true := by
  have heq : ∀ i, test (r i) = (same? ps).any fun g ↦ p g.code := fun i ↦ by
    rw [htest, h.any_current? hp]
  cases hany : (same? ps).any fun g ↦ p g.code with
  | false => exact .inl fun i ↦ by rw [heq, hany]
  | true => exact .inr ⟨fun i ↦ by rw [heq, hany], exists_of_same?_any hany⟩

/-- Both readers come to one place, and both find the same token. -/
def Agrees (z : Respacing) (dirty : Bool) (ps : List Piece) (f : Reader → Token × Reader)
    (r : Side → Reader) : Prop :=
  (∃ t, ∀ i, (f (r i)).1 = t) ∧ Reaches z dirty ps fun i ↦ (f (r i)).2

/-- Readers agree on what is left if they do from where they have come to. -/
theorem Reaches.agrees {f : Reader → Token × Reader}
    (h : Reaches z dirty ps r)
    (h' : ∀ {dirty' qs}, Paces z dirty' qs r → Agrees z dirty' qs f r) : Agrees z dirty ps f r := by
  obtain ⟨gs, qs, dirty', rfl, hgs, hle, hpaces⟩ := id h
  exact ⟨(h' hpaces).1, h.trans fun hpaces ↦ (h' hpaces).2⟩

namespace Numeral

/-- The characters of one of the letters that numerals use. -/
def isLetter (letter code : Nat) : Bool :=
  code == letter || code == letter - 32

theorem atLetter_eq (letter : Nat) (r : Reader) :
    atLetter letter r = r.current?.any (isLetter letter) := by
  rw [atLetter, at?_eq, at?_eq]
  cases r.current? <;> simp [isLetter]

theorem atDigit_eq (base : Nat) (r : Reader) : atDigit base r = r.current?.any (isDigit base) := by
  rw [atDigit]
  cases r.current? <;> simp

/-- No stop is a digit. -/
theorem isDigit_stop (base : Nat) : ∀ c ∈ stopCodes, isDigit base c = false := by
  intro c hc
  have hnone : hexValue? c = none := by
    revert c hc
    decide
  simp [isDigit, hnone]

/-- A digit may stand before a gap. -/
theorem mayPrecede_of_isDigit {base c : Nat} (h : isDigit base c = true) :
    mayPrecede c = true := by
  have hne : ∀ n, hexValue? n = none → c ≠ n := by
    rintro n hn rfl
    simp [isDigit, hn] at h
  simp [mayPrecede, isLineBreak, hne 10 rfl, hne 13 rfl, hne 0x2028 rfl, hne 0x2029 rfl, hne 47 rfl,
    hne 42 rfl, hne 92 rfl]

theorem mayPrecede_of_isLetter {letter c : Nat} (h : isLetter letter c = true)
    (hletter : mayPrecede letter = true) (hlower : mayPrecede (letter - 32) = true) :
    mayPrecede c = true := by
  simp only [isLetter, Bool.or_eq_true, beq_iff_eq] at h
  rcases h with rfl | rfl <;> assumption

/-! ### Digits -/

/-- A digit, or an underscore between digits. -/
def isDigitOr (base : Nat) (separators : Bool) (code : Nat) : Bool :=
  isDigit base code || (separators && code == 95)

/-- No stop is a digit or a separator of digits. -/
theorem isDigitOr_stop (base : Nat) (separators : Bool) :
    ∀ c ∈ stopCodes, isDigitOr base separators c = false := by
  intro c hc
  have hne : c ≠ 95 := by
    revert c hc
    decide
  simp [isDigitOr, isDigit_stop base c hc, hne]

/-- A digit or a separator of digits may stand before a gap. -/
theorem mayPrecede_of_isDigitOr {base c : Nat} {separators : Bool}
    (h : isDigitOr base separators c = true) : mayPrecede c = true := by
  simp only [isDigitOr, Bool.or_eq_true, Bool.and_eq_true, beq_iff_eq] at h
  rcases h with h | ⟨-, rfl⟩
  · exact mayPrecede_of_isDigit h
  · rfl

/-- The digits at which both texts stand, and a place at which there is none. -/
theorem exists_takeWhile (hvalid : Valid ps) {p : Nat → Bool}
    (hp : ∀ c ∈ stopCodes, p c = false) :
    ∃ (gs : List Glyph) (qs : List Piece), ps = gs.map same ++ qs ∧ (∀ g ∈ gs, p g.code = true) ∧
      ∀ i, ((scalars i ps).takeWhile fun c ↦ p c.code).length = gs.length := by
  induction ps with
  | nil => exact ⟨[], [], rfl, by simp, by simp⟩
  | cons q ps ih =>
    cases q with
    | gap blanks =>
      refine ⟨[], _, rfl, by simp, fun i ↦ ?_⟩
      obtain ⟨g, gs, hgs, hstop⟩ := hvalid.exists_stop rfl i
      rw [Glyph.isStop_eq] at hstop
      simp [scalars, hgs, hp _ (mem_stopCodes hstop)]
    | same g =>
      cases hg : p g.code with
      | false => exact ⟨[], _, rfl, by simp, fun i ↦ by simp [hg]⟩
      | true =>
        obtain ⟨gs, qs, rfl, hgs, hlength⟩ := ih hvalid.2
        refine ⟨g :: gs, qs, rfl, ?_, fun i ↦ ?_⟩
        · simpa using ⟨hg, hgs⟩
        · rw [scalars_same, List.takeWhile_cons_of_pos (by simpa using hg), List.length_cons, hlength]
          rfl

/-- Both readers move past one digit or underscore; a misplaced underscore is noted by both. -/
theorem exists_digits_step {g : Glyph} (h : Paces z dirty (same g :: ps) r) (base : Nat) :
    ∃ dirty', (dirty = true → dirty' = true) ∧ Paces z dirty' ps fun i ↦
      if (r i).at? 95 && !atDigit base (r i).step then
        (r i).step.note (r i).step.offset .doubledSeparator
      else (r i).step := by
  have hnext := h.step
  -- The underscore is tested before the move and the digit behind it afterwards.
  have hunder : ∀ i, (r i).at? 95 = _ := h.at? (by decide)
  have hdigit : ∀ i, atDigit base (r i).step = _ := fun i ↦ by
    rw [atDigit_eq, hnext.any_current? (isDigit_stop base) i]
  simp only [hunder, hdigit]
  split
  · exact ⟨true, fun _ ↦ rfl, hnext.note _ _⟩
  · exact ⟨_, fun hd ↦ by simp [hd], hnext⟩

/-- Readers that keep pace move past digits. -/
theorem reaches_digits {base : Nat} {separators : Bool} {gs : List Glyph}
    (h : Paces z dirty (gs.map same ++ ps) r)
    (hgs : ∀ g ∈ gs, isDigitOr base separators g.code = true) :
    Reaches z dirty (gs.map same ++ ps) fun i ↦ digits base gs.length (r i) := by
  induction gs generalizing dirty r with
  | nil => exact h.reaches
  | cons g gs ih =>
    rw [List.map_cons, List.cons_append] at h ⊢
    have hg := mayPrecede_of_isDigitOr (hgs g (by simp))
    obtain ⟨d, hle, hpaces⟩ := exists_digits_step h base
    obtain ⟨gs', qs, d', hqs, hall, hle', hlast⟩ := ih hpaces fun g hg ↦ hgs g (by simp [hg])
    refine ⟨g :: gs', qs, d', by rw [hqs]; rfl, ?_, fun hd ↦ hle' (hle hd), hlast⟩
    simpa using ⟨hg, hall⟩

/-- A mantissa is moved past digit by digit, and the digits are the same on both sides. -/
theorem mantissa_eq (h : Paces z dirty ps r) (base : Nat) (separators : Bool) :
    ∃ (gs : List Glyph) (qs : List Piece), ps = gs.map same ++ qs ∧
      (∀ g ∈ gs, isDigitOr base separators g.code = true) ∧
      ∀ i, mantissa base separators (r i) = digits base gs.length (r i) := by
  obtain ⟨gs, qs, hps, hgs, hlength⟩ := exists_takeWhile h.valid (isDigitOr_stop base separators)
  refine ⟨gs, qs, hps, hgs, fun i ↦ ?_⟩
  rw [mantissa, (h.stands i).rest, ← hlength i]
  rfl

/-- Readers that keep pace move past a mantissa. -/
theorem reaches_mantissa (h : Paces z dirty ps r) (base : Nat) (separators : Bool) :
    Reaches z dirty ps fun i ↦ mantissa base separators (r i) := by
  obtain ⟨gs, qs, rfl, hgs, hmantissa⟩ := mantissa_eq h base separators
  simp only [hmantissa]
  exact reaches_digits h hgs

/-- At a digit, the digits start with it. -/
theorem reaches_mantissa_cons {g : Glyph} (h : Paces z dirty (same g :: ps) r) {base : Nat}
    (hg : isDigit base g.code = true) (separators : Bool) :
    ∃ dirty', (dirty = true → dirty' = true) ∧
      Reaches z dirty' ps fun i ↦ mantissa base separators (r i) := by
  obtain ⟨gs, qs, hps, hgs, hlength⟩ := exists_takeWhile h.valid (isDigitOr_stop base separators)
  match gs, hps with
  | [], hps =>
    -- The first character is a digit, so there is at least one.
    have hold := hlength .old
    rw [scalars_same, List.takeWhile_cons_of_pos (by simp [isDigitOr, hg])] at hold
    simp at hold
  | d :: gs, hps =>
    obtain ⟨rfl, rfl⟩ : g = d ∧ ps = gs.map same ++ qs := by simpa using hps
    obtain ⟨dirty', hle, hpaces⟩ := exists_digits_step h base
    refine ⟨dirty', hle, ?_⟩
    have hrest := reaches_digits hpaces fun g hg ↦ hgs g (by simp [hg])
    have hmantissa : ∀ i, mantissa base separators (r i) = digits base (gs.length + 1) (r i) := by
      intro i
      rw [mantissa, (h.stands i).rest, ← List.length_cons (a := g), ← hlength i]
      rfl
    simp only [hmantissa]
    exact hrest

/-! ### The parts of a numeral -/

/-- What may not follow a numeral is seen alike. -/
theorem agrees_finish (h : Paces z dirty ps r) : Agrees z dirty ps finish r := by
  have hstop : ∀ c ∈ stopCodes, (isIdentifierStart c || isAsciiDigit c) = false := by
    intro c hc
    have hpart := isIdentifierPart_stopCodes c hc
    rw [isIdentifierPart, Bool.or_eq_false_iff] at hpart
    exact hpart.1
  obtain hno | ⟨hyes, g, qs, rfl, hg⟩ := h.test (atLetter_eq 110) (by decide)
  · have hfinish : ∀ i, finish (r i)
        = (if (same? ps).any fun g ↦ isIdentifierStart g.code || isAsciiDigit g.code then .illegal
            else .number, r i) := by
      intro i
      have htest := h.any_current? hstop i
      rw [← htest, finish, hno i]
      cases (r i).current? with
      | none => rfl
      | some code =>
        simp only [Bool.false_eq_true, if_false, Option.any_some]
        split <;> rfl
    simp only [Agrees, hfinish]
    exact ⟨⟨_, fun _ ↦ rfl⟩, h.reaches⟩
  · have hfinish : ∀ i, finish (r i) = (.number, (r i).step) := by simp [finish, hyes]
    simp only [Agrees, hfinish]
    exact ⟨⟨_, fun _ ↦ rfl⟩, h.reaches_step (mayPrecede_of_isLetter hg rfl rfl)⟩

/-- A sign that may stand before an exponent. -/
def isSign (code : Nat) : Bool :=
  code == 45 || code == 43

theorem atSign_eq (r : Reader) : (r.at? 45 || r.at? 43) = r.current?.any isSign := by
  rw [at?_eq, at?_eq]
  cases r.current? <;> simp [isSign]

theorem mayPrecede_of_isSign {c : Nat} (h : isSign c = true) : mayPrecede c = true := by
  simp only [isSign, Bool.or_eq_true, beq_iff_eq] at h
  rcases h with rfl | rfl <;> rfl

/-- The digits of an exponent, whose sign has been passed. -/
theorem agrees_exponentDigits (h : Paces z dirty ps r) :
    Agrees z dirty ps
      (fun r ↦ if atDigit 10 r then finish (mantissa 10 true r.step) else (.illegal, r)) r := by
  obtain hno | ⟨hyes, g, qs, rfl, hg⟩ := h.test (atDigit_eq 10) (isDigit_stop 10)
  · simp only [Agrees, hno, Bool.false_eq_true, if_false]
    exact ⟨⟨_, fun _ ↦ rfl⟩, h.reaches⟩
  · simp only [Agrees, hyes, if_true]
    have hstep := h.reaches_step (mayPrecede_of_isDigit hg)
    exact (hstep.trans fun h ↦ reaches_mantissa h 10 true).agrees fun h ↦ agrees_finish h

/-- An exponent is read alike. -/
theorem agrees_exponent (h : Paces z dirty ps r) : Agrees z dirty ps exponent r := by
  obtain hno | ⟨hyes, g, qs, rfl, hg⟩ := h.test (atLetter_eq 101) (by decide)
  · have hexponent : ∀ i, exponent (r i) = finish (r i) := by simp [exponent, hno]
    simp only [Agrees, hexponent]
    exact agrees_finish h
  · have hexponent : ∀ i, exponent (r i)
        = (fun r ↦ if atDigit 10 r then finish (mantissa 10 true r.step) else (.illegal, r))
          (if (r i).step.at? 45 || (r i).step.at? 43 then (r i).step.step else (r i).step) := by
      simp [exponent, hyes]
    simp only [Agrees, hexponent]
    have hstep := h.reaches_step (mayPrecede_of_isLetter hg rfl rfl)
    refine (hstep.trans fun {d ps} h ↦ ?_).agrees fun h ↦ agrees_exponentDigits h
    obtain hno | ⟨hyes, g, qs, rfl, hg⟩ := h.test atSign_eq (by decide)
    · simp only [hno, Bool.false_eq_true, if_false]
      exact h.reaches
    · simp only [hyes, if_true]
      exact h.reaches_step (mayPrecede_of_isSign hg)

/-- A fraction is read alike. -/
theorem agrees_fraction (h : Paces z dirty ps r) : Agrees z dirty ps fraction r := by
  obtain hno | ⟨hyes, g, qs, rfl, hg⟩ := h.test (at?_eq · 46) (by decide)
  · have hfraction : ∀ i, fraction (r i) = exponent (r i) := by simp [fraction, hno]
    simp only [Agrees, hfraction]
    exact agrees_exponent h
  · have hfraction : ∀ i, fraction (r i) = exponent (mantissa 10 true (r i).step) := by
      simp [fraction, hyes]
    simp only [Agrees, hfraction]
    rw [beq_iff_eq] at hg
    have hstep := h.reaches_step (by rw [hg]; rfl)
    exact (hstep.trans fun h ↦ reaches_mantissa h 10 true).agrees fun h ↦ agrees_exponent h

/-- The digits behind a base letter. -/
theorem agrees_based (h : Paces z dirty ps r) (base : Nat) {g : Glyph} {qs : List Piece}
    (hps : ps = same g :: qs) (hg : mayPrecede g.code = true) :
    Agrees z dirty ps (based base) r := by
  subst hps
  refine (h.reaches_step hg).agrees
    (f := fun r ↦ if atDigit base r then finish (mantissa base true r) else (.illegal, r)) ?_
  intro d ps h
  obtain hno | ⟨hyes, g, qs, rfl, hg⟩ := h.test (atDigit_eq base) (isDigit_stop base)
  · simp only [Agrees, hno, Bool.false_eq_true, if_false]
    exact ⟨⟨_, fun _ ↦ rfl⟩, h.reaches⟩
  · simp only [Agrees, hyes, if_true]
    exact (reaches_mantissa h base true).agrees fun h ↦ agrees_finish h

/-- What follows a leading zero. -/
theorem agrees_afterZero (h : Paces z dirty ps r) :
    Agrees z dirty ps
      (fun r ↦
        if atLetter 120 r then based 16 r
        else if atLetter 111 r then based 8 r
        else if atLetter 98 r then based 2 r
        else if r.at? 46 || atLetter 101 r then fraction r
        else finish (mantissa 8 false r)) r := by
  obtain hno | ⟨hyes, g, qs, hps, hg⟩ := h.test (atLetter_eq 120) (by decide)
  case inr =>
    simp only [Agrees, hyes, if_true]
    exact agrees_based h 16 hps (mayPrecede_of_isLetter hg rfl rfl)
  obtain hno' | ⟨hyes, g, qs, hps, hg⟩ := h.test (atLetter_eq 111) (by decide)
  case inr =>
    simp only [Agrees, hno, hyes, Bool.false_eq_true, if_true, if_false]
    exact agrees_based h 8 hps (mayPrecede_of_isLetter hg rfl rfl)
  obtain hno'' | ⟨hyes, g, qs, hps, hg⟩ := h.test (atLetter_eq 98) (by decide)
  case inr =>
    simp only [Agrees, hno, hno', hyes, Bool.false_eq_true, if_true, if_false]
    exact agrees_based h 2 hps (mayPrecede_of_isLetter hg rfl rfl)
  simp only [Agrees, hno, hno', hno'', Bool.false_eq_true, if_false]
  have htest := h.any_current? (p := fun c ↦ c == 46 || isLetter 101 c) (by decide)
  have heq : ∀ i, ((r i).at? 46 || atLetter 101 (r i))
      = (same? ps).any fun g ↦ g.code == 46 || isLetter 101 g.code := fun i ↦ by
    rw [← htest i, at?_eq, atLetter_eq]
    cases (r i).current? <;> simp
  simp only [heq]
  split
  · exact agrees_fraction h
  · exact (reaches_mantissa h 8 false).agrees fun h ↦ agrees_finish h

/-- **Numerals.** At a digit, both readers move past it and past the same characters behind it, and
find the same token. -/
theorem agrees_read {g : Glyph} (h : Paces z dirty (same g :: ps) r)
    (hg : isAsciiDigit g.code = true) :
    ∃ dirty', (dirty = true → dirty' = true) ∧ (∃ t, ∀ i, (read (r i)).1 = t) ∧
      Reaches z dirty' ps fun i ↦ (read (r i)).2 := by
  obtain hno | ⟨hyes, -⟩ := h.test (at?_eq · 48) (by decide)
  · have hread : ∀ i, read (r i) = fraction (mantissa 10 true (r i)) := by simp [read, hno]
    simp only [hread]
    have hdigit : isDigit 10 g.code = true := by
      simp only [isAsciiDigit, Bool.and_eq_true, decide_eq_true_eq] at hg
      simp [isDigit, hexValue?, hg]
      omega
    obtain ⟨dirty', hle, hreach⟩ := reaches_mantissa_cons h hdigit true
    exact ⟨dirty', hle, hreach.agrees fun h ↦ agrees_fraction h⟩
  · have hread : ∀ i, read (r i) = _ := fun i ↦ by rw [read, if_pos (hyes i)]
    simp only [hread]
    exact ⟨_, fun hd ↦ by simp [hd], agrees_afterZero h.step⟩

theorem agrees_readFraction (h : Paces z dirty ps r) : Agrees z dirty ps readFraction r :=
  (reaches_mantissa h 10 true).agrees fun h ↦ agrees_exponent h

end Numeral

end ColonGap.Script
