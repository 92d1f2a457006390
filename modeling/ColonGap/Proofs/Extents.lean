import ColonGap.Proofs.Pace
import ColonGap.Script.Lexer.Literal

/-!
# The ends of literals, on both sides

A string, a regular expression or a stretch of template text ends at the same place of both texts
and in the same way, whether or not a gap lies inside it. Each of the three automata has modes in
which one character more would matter; they are entered behind a backslash, and no gap follows a
backslash.
-/

namespace ColonGap

namespace Glyph

/-- A filler has no code but those of blanks. -/
theorem code_ne_of_isFiller {g : Glyph} (h : g.isFiller = true) {n : Nat}
    (hn : (isBlank n && !isLineBreak n) = false) : g.code ≠ n := by
  rintro rfl
  rw [isFiller, hn] at h
  exact Bool.false_ne_true h

/-- A stop has no code but those of blanks, of the colon and of the slash. -/
theorem code_ne_of_isStop {g : Glyph} (h : g.isStop = true) {n : Nat}
    (hn : (isBlank n && !isLineBreak n || n == 58 || n == 47) = false) : g.code ≠ n := by
  rintro rfl
  rw [isStop, isFiller, hn] at h
  exact Bool.false_ne_true h

end Glyph

namespace Script

open Piece

variable {ps : List Piece}

/-- What the first characters of both sides have in common. -/
theorem head?_pieces (hvalid : Valid ps) {p : Nat → Bool}
    (hp : ∀ g : Glyph, g.isStop = true → p g.code = false) (i : Side) :
    ((scalars i ps).head?.any fun c ↦ p c.code) = (same? ps).any fun g ↦ p g.code := by
  match ps, hvalid with
  | [], _ => rfl
  | same g :: ps, _ => rfl
  | gap blanks :: ps, hvalid =>
    obtain ⟨g, gs, hgs, hstop⟩ := hvalid.exists_stop rfl i
    simp [scalars, hgs, hp g hstop, same?]

namespace Extent

/-- The extent, with its count apart. -/
def split (e : Extent) : Nat × Ending :=
  (e.count, e.ending)

theorem split_more (e : Extent) : e.more.split = (e.split.1 + 1, e.split.2) := rfl

/-- A line break breaks off a literal: both bytes of a carriage return and line feed do, and one of
any other. -/
theorem atLineBreak_eq (code : Nat) (rest : List Scalar) :
    atLineBreak code rest
      = ⟨if code == 13 && (rest.head?.any fun c ↦ c.code == 10) then 2 else 1, .broken⟩ := by
  cases rest <;> simp [atLineBreak]

/-- A literal that breaks off at a line break does so on both sides, and no gap follows. -/
theorem even_atLineBreak {β : Type} {marks : β → List Nat} {f : List Scalar → Nat × β} {g : Glyph}
    {b : β} (hvalid : Valid (same g :: ps)) (hbreak : isLineBreak g.code = true) (hb : marks b = [])
    (hf : ∀ i, f (g.scalar :: scalars i ps) = ((atLineBreak g.code (scalars i ps)).count, b)) :
    Even (fun rs ↦ startsGap rs = false) marks f (same g :: ps) := by
  have hbehind : ∀ {h : Glyph} {rs : List Piece}, Valid (same h :: rs) → isLineBreak h.code = true →
      startsGap rs = false := by
    intro h rs hvalid hbreak
    cases hgap : startsGap rs with
    | false => rfl
    | true => exact absurd hbreak (by simp [(hvalid.1 hgap).2.2.2])
  have hnext := head?_pieces hvalid.2 (p := (· == 10))
    fun g hg ↦ by simpa using Glyph.code_ne_of_isStop hg (by decide)
  simp only [atLineBreak_eq, hnext] at hf
  by_cases htwo : g.code == 13 && (same? ps).any fun g ↦ g.code == 10
  · match ps, hvalid, htwo with
    | same h :: ps, hvalid, htwo =>
      have hfeed : h.code = 10 := by simpa [same?] using (Bool.and_eq_true_iff.1 htwo).2
      exact .two (hbehind hvalid.2 (by rw [hfeed]; rfl)) (.inl hb) fun i ↦ by
        simpa [htwo] using hf i
    | [], _, htwo | gap _ :: _, _, htwo => simp [same?] at htwo
  · exact .one (hbehind hvalid hbreak) (.inl hb) fun i ↦ by simpa [htwo] using hf i

end Extent

/-! ### Strings -/

/-- A string that is closed ends with its quote. -/
def stringMarks (quote : Nat) : Ending → List Nat
  | .closed => [quote]
  | .broken | .substitution => []

theorem stringExtent_returned {quote : Nat} {c : Scalar} (hc : c.code ≠ 10)
    (rest : List Scalar) :
    stringExtent quote .returned (c :: rest) = stringExtent quote .plain (c :: rest) := by
  simp [stringExtent, hc]

/-- Blanks make a string longer by themselves and change nothing else. -/
theorem stringExtent_blanks {quote : Nat} (hquote : quote = 34 ∨ quote = 39)
    {blanks : List Glyph} (hblanks : ∀ g ∈ blanks, g.isFiller = true) {rest : List Scalar} :
    (stringExtent quote .plain (blanks.map Glyph.scalar ++ rest)).split
      = (blanks.length + (stringExtent quote .plain rest).split.1,
        (stringExtent quote .plain rest).split.2) := by
  induction blanks with
  | nil => simp
  | cons b bs ih =>
    have hb := hblanks b (by simp)
    have hne : b.code ≠ quote := by
      rcases hquote with rfl | rfl <;> exact Glyph.code_ne_of_isFiller hb (by decide)
    have h10 := Glyph.code_ne_of_isFiller hb (n := 10) (by decide)
    have h13 := Glyph.code_ne_of_isFiller hb (n := 13) (by decide)
    have h92 := Glyph.code_ne_of_isFiller hb (n := 92) (by decide)
    have hstep : stringExtent quote .plain ((b :: bs).map Glyph.scalar ++ rest)
        = (stringExtent quote .plain (bs.map Glyph.scalar ++ rest)).more := by
      simp [stringExtent, hne, h10, h13, h92]
    rw [hstep, Extent.split_more, ih fun g hg ↦ hblanks g (by simp [hg]), List.length_cons]
    simp [Nat.add_right_comm]

/-- A string ends at the same place of both texts and in the same way. -/
theorem even_stringExtent {quote : Nat} (hquote : quote = 34 ∨ quote = 39) (hvalid : Valid ps)
    {mode : StringMode} (hmode : startsGap ps = true → mode ≠ .escaped) :
    Even (fun _ ↦ True) (stringMarks quote) (fun s ↦ (stringExtent quote mode s).split) ps := by
  induction ps generalizing mode with
  | nil => exact .stop (b := .broken) trivial rfl fun i ↦ by cases mode <;> rfl
  | cons p ps ih =>
    cases p with
    | gap blanks =>
      obtain ⟨hfill, ⟨g, qs, rfl, hg⟩, hvalid⟩ := hvalid
      refine (@ih hvalid .plain (by simp)).gap fun i ↦ ?_
      rw [← stringExtent_blanks hquote (hfill i)]
      -- Behind a carriage return that was escaped, only a line feed would matter.
      match mode, hmode rfl with
      | .plain, _ => rfl
      | .returned, _ =>
        congr 1
        cases hi : blanks i with
        | nil =>
          have hne : g.scalar.code ≠ 10 := by
            rw [Glyph.scalar_code]
            omega
          exact stringExtent_returned hne _
        | cons b bs =>
          exact stringExtent_returned
            (Glyph.code_ne_of_isFiller (hfill i b (by simp [hi])) (by decide)) _
    | same g =>
      obtain ⟨hprev, hvalid⟩ := hvalid
      have hline : (g.code == 10 || g.code == 13) = true → isLineBreak g.code = true := by
        intro h
        rw [isLineBreak, h]
        rfl
      have hplain : ∀ {mode : StringMode}, mode ≠ .escaped →
          (mode == .returned && g.code == 10) = false →
          Even (fun _ ↦ True) (stringMarks quote) (fun s ↦ (stringExtent quote mode s).split)
            (same g :: ps) := by
        intro mode hne hreturned
        have hunfold : ∀ rest, stringExtent quote mode (g.scalar :: rest)
            = if g.code == quote then ⟨1, .closed⟩
              else if g.code == 10 || g.code == 13 then .atLineBreak g.code rest
              else (stringExtent quote (if g.code == 92 then .escaped else .plain) rest).more := by
          intro rest
          cases mode with
          | escaped => exact absurd rfl hne
          | plain | returned => simp_all [stringExtent]
        by_cases hclose : g.code = quote
        · exact .one (b := .closed) trivial (.inr (by rw [hclose]; rfl)) fun i ↦ by
            simp [hunfold, hclose, Extent.split]
        by_cases hbreak : g.code == 10 || g.code == 13
        · refine (Extent.even_atLineBreak (b := .broken) ⟨hprev, hvalid⟩ (hline hbreak) rfl
            fun i ↦ ?_).mono fun _ _ ↦ trivial
          simp only [hunfold, beq_eq_false_iff_ne.2 hclose, hbreak]
          simp [Extent.split, Extent.atLineBreak_eq]
        · have hnext : startsGap ps = true →
              (if g.code == 92 then StringMode.escaped else .plain) ≠ .escaped := by
            intro h
            simp [(hprev h).2.2.1]
          refine (ih hvalid hnext).same fun i ↦ ?_
          simp only [hunfold, beq_eq_false_iff_ne.2 hclose, hbreak]
          simp [Extent.split_more]
      cases mode with
      | escaped =>
        refine (@ih hvalid (if g.code == 13 then .returned else .plain) fun _ ↦ ?_).same
          fun i ↦ by simp [stringExtent, Extent.split_more]
        split <;> simp
      | plain => exact hplain (by simp) (by simp)
      | returned =>
        by_cases hfeed : g.code = 10
        · refine (@ih hvalid .plain (by simp)).same fun i ↦ ?_
          simp [stringExtent, hfeed, Extent.split_more]
        · exact hplain (by simp) (by simp [hfeed])

/-! ### Regular expressions -/

/-- The mode is one that a gap leaves alone. -/
def RegexMode.isSteady : RegexMode → Bool
  | .plain | .bracket => true
  | .escaped | .bracketEscaped | .bracketReturned => false

/-- The mode is one behind a backslash. -/
def RegexMode.isEscape : RegexMode → Bool
  | .escaped | .bracketEscaped => true
  | .plain | .bracket | .bracketReturned => false

/-- Blanks make a regular expression longer by themselves and change nothing else. -/
theorem regexExtent_blanks {mode : RegexMode} (hmode : mode.isSteady = true)
    {blanks : List Glyph} (hblanks : ∀ g ∈ blanks, g.isFiller = true) {rest : List Scalar} :
    regexExtent mode (blanks.map Glyph.scalar ++ rest)
      = (blanks.length + (regexExtent mode rest).1, (regexExtent mode rest).2) := by
  induction blanks with
  | nil => simp
  | cons b bs ih =>
    have hb := hblanks b (by simp)
    have hbreak := Glyph.not_isLineBreak_of_isFiller hb
    have hne : ∀ n ∈ [10, 13, 47, 91, 92, 93], b.code ≠ n := by
      intro n hn
      refine Glyph.code_ne_of_isFiller hb ?_
      revert n
      decide
    have hstep : regexExtent mode ((b :: bs).map Glyph.scalar ++ rest)
        = ((regexExtent mode (bs.map Glyph.scalar ++ rest)).1 + 1,
          (regexExtent mode (bs.map Glyph.scalar ++ rest)).2) := by
      match mode, hmode with
      | .plain, _ => simp [regexExtent, hne 47, hne 92, hne 91, hbreak]
      | .bracket, _ => simp [regexExtent, hne 10, hne 13, hne 92, hne 93]
    rw [hstep, ih fun g hg ↦ hblanks g (by simp [hg]), List.length_cons]
    simp [Nat.add_right_comm]

theorem regexExtent_returned {c : Scalar} (hc : c.code ≠ 10) (rest : List Scalar) :
    regexExtent .bracketReturned (c :: rest) = regexExtent .bracket (c :: rest) := by
  simp [regexExtent, hc]

/-- A regular expression ends at the same place of both texts and in the same way. -/
theorem even_regexExtent (hvalid : Valid ps) {mode : RegexMode}
    (hmode : startsGap ps = true → mode.isEscape = false) :
    Even (fun rs ↦ startsGap rs = false) (fun _ ↦ []) (regexExtent mode) ps := by
  induction ps generalizing mode with
  | nil =>
    refine .stop (b := (regexExtent mode []).2) rfl rfl fun i ↦ ?_
    cases mode <;> rfl
  | cons p ps ih =>
    cases p with
    | gap blanks =>
      obtain ⟨hfill, ⟨g, qs, rfl, hg⟩, hvalid⟩ := hvalid
      match mode, hmode rfl with
      | .plain, _ | .bracket, _ =>
        exact (ih hvalid (by simp)).gap fun i ↦ regexExtent_blanks rfl (hfill i)
      | .bracketReturned, _ =>
        refine (@ih hvalid .bracket (by simp)).gap fun i ↦ ?_
        rw [← regexExtent_blanks rfl (hfill i)]
        cases hi : blanks i with
        | nil =>
          have hne : g.scalar.code ≠ 10 := by
            rw [Glyph.scalar_code]
            omega
          exact regexExtent_returned hne _
        | cons b bs =>
          exact regexExtent_returned
            (Glyph.code_ne_of_isFiller (hfill i b (by simp [hi])) (by decide)) _
    | same g =>
      obtain ⟨hprev, hvalid⟩ := hvalid
      have hbracket : ∀ {mode : RegexMode}, mode = .bracket ∨ mode = .bracketReturned →
          (mode == .bracketReturned && g.code == 10) = false →
          Even (fun rs ↦ startsGap rs = false) (fun _ ↦ []) (regexExtent mode) (same g :: ps) := by
        intro mode hmode hreturned
        have hunfold : ∀ rest, regexExtent mode (g.scalar :: rest)
            = if g.code == 10 || g.code == 13 then
                ((Extent.atLineBreak g.code rest).count, .unreported)
              else
                ((regexExtent (if g.code == 92 then .bracketEscaped
                  else if g.code == 93 then .plain else .bracket) rest).1 + 1,
                (regexExtent (if g.code == 92 then .bracketEscaped
                  else if g.code == 93 then .plain else .bracket) rest).2) := by
          intro rest
          rcases hmode with rfl | rfl <;> simp_all [regexExtent]
        by_cases hbreak : g.code == 10 || g.code == 13
        · have hline : isLineBreak g.code = true := by
            rw [isLineBreak, hbreak]
            rfl
          refine Extent.even_atLineBreak (b := .unreported) ⟨hprev, hvalid⟩ hline rfl fun i ↦ ?_
          simp only [hunfold, hbreak, if_true]
        · have hnext : startsGap ps = true →
              (if g.code == 92 then RegexMode.bracketEscaped
                else if g.code == 93 then .plain else .bracket).isEscape = false := by
            intro h
            have h92 : (g.code == 92) = false := by simpa using (hprev h).2.2.1
            simp only [h92, Bool.false_eq_true, if_false]
            split <;> rfl
          refine (ih hvalid hnext).same fun i ↦ ?_
          rw [Bool.not_eq_true] at hbreak
          simp only [hunfold, hbreak, Bool.false_eq_true, if_false]
      cases mode with
      | plain =>
        by_cases hclose : g.code = 47
        · have hgap : startsGap ps = false := by
            cases hgap : startsGap ps with
            | false => rfl
            | true => exact absurd hclose (hprev hgap).1
          exact .one (b := .closed) hgap (.inl rfl) fun i ↦ by simp [regexExtent, hclose]
        by_cases hbreak : isLineBreak g.code
        · refine Extent.even_atLineBreak (b := .missingSlash) ⟨hprev, hvalid⟩ hbreak rfl fun i ↦ ?_
          simp [regexExtent, hclose, hbreak]
        · have hnext : startsGap ps = true →
              (if g.code == 92 then RegexMode.escaped
                else if g.code == 91 then .bracket else .plain).isEscape = false := by
            intro h
            have h92 : (g.code == 92) = false := by simpa using (hprev h).2.2.1
            simp only [h92, Bool.false_eq_true, if_false]
            split <;> rfl
          refine (ih hvalid hnext).same fun i ↦ ?_
          simp [regexExtent, hclose, hbreak]
      | escaped =>
        by_cases hbreak : isLineBreak g.code
        · refine Extent.even_atLineBreak (b := .missingSlash) ⟨hprev, hvalid⟩ hbreak rfl fun i ↦ ?_
          simp [regexExtent, hbreak]
        · refine (@ih hvalid .plain fun _ ↦ rfl).same fun i ↦ ?_
          simp [regexExtent, hbreak]
      | bracketEscaped =>
        refine (@ih hvalid (if g.code == 13 then .bracketReturned else .bracket)
          fun _ ↦ ?_).same fun i ↦ by simp [regexExtent]
        split <;> rfl
      | bracket => exact hbracket (.inl rfl) (by simp)
      | bracketReturned =>
        by_cases hfeed : g.code = 10
        · refine (@ih hvalid .bracket fun _ ↦ rfl).same fun i ↦ ?_
          simp [regexExtent, hfeed]
        · exact hbracket (.inr rfl) (by simp [hfeed])

/-! ### Templates -/

namespace TemplateExtent

/-- The extent, with its count apart. -/
def split (t : TemplateExtent) : Nat × Ending × Bool :=
  (t.extent.count, t.extent.ending, t.badDigit)

theorem split_more (t : TemplateExtent) : t.more.split = (t.split.1 + 1, t.split.2) := rfl

end TemplateExtent

/-- A stretch of template text ends with a backtick or with the opening of a substitution. -/
def templateMarks (ending : Ending × Bool) : List Nat :=
  match ending.1 with
  | .closed => [96]
  | .substitution => [36, 123]
  | .broken => []

/-- Blanks make template text longer by themselves and change nothing else. -/
theorem templateExtent_blanks {blanks : List Glyph}
    (hblanks : ∀ g ∈ blanks, g.isFiller = true) {rest : List Scalar} :
    (templateExtent false (blanks.map Glyph.scalar ++ rest)).split
      = (blanks.length + (templateExtent false rest).split.1,
        (templateExtent false rest).split.2) := by
  induction blanks with
  | nil => simp
  | cons b bs ih =>
    have hb := hblanks b (by simp)
    have h96 := Glyph.code_ne_of_isFiller hb (n := 96) (by decide)
    have h92 := Glyph.code_ne_of_isFiller hb (n := 92) (by decide)
    have h36 := Glyph.code_ne_of_isFiller hb (n := 36) (by decide)
    have hstep : templateExtent false ((b :: bs).map Glyph.scalar ++ rest)
        = (templateExtent false (bs.map Glyph.scalar ++ rest)).more := by
      simp [templateExtent, h96, h92, h36]
    rw [hstep, TemplateExtent.split_more, ih fun g hg ↦ hblanks g (by simp [hg]),
      List.length_cons]
    simp [Nat.add_right_comm]

/-- A stretch of template text ends at the same place of both texts and in the same way. -/
theorem even_templateExtent (hvalid : Valid ps) {escaped : Bool}
    (hmode : startsGap ps = true → escaped = false) :
    Even (fun _ ↦ True) templateMarks (fun s ↦ (templateExtent escaped s).split) ps := by
  induction ps generalizing escaped with
  | nil => exact .stop (b := (.broken, false)) trivial rfl fun i ↦ by cases escaped <;> rfl
  | cons p ps ih =>
    cases p with
    | gap blanks =>
      obtain ⟨hfill, ⟨g, qs, rfl, hg⟩, hvalid⟩ := hvalid
      obtain rfl := hmode rfl
      exact (ih hvalid (by simp)).gap fun i ↦ templateExtent_blanks (hfill i)
    | same g =>
      obtain ⟨hprev, hvalid⟩ := hvalid
      cases escaped with
      | true =>
        obtain ⟨qs, rs, b, hps, hb, -, hmeasure⟩ := @ih hvalid false fun _ ↦ rfl
        refine ⟨same g :: qs, rs, (b.1, b.2 || g.code == 56 || g.code == 57), by rw [hps]; rfl,
          Closes.cons hb _, trivial, fun i ↦ ?_⟩
        have hi := hmeasure i
        simp only [TemplateExtent.split, Prod.ext_iff] at hi
        simp [templateExtent, TemplateExtent.split, TemplateExtent.more, Extent.more, hi]
      | false =>
        by_cases hclose : g.code = 96
        · refine .one (b := (.closed, false)) trivial (.inr (by rw [hclose]; rfl)) fun i ↦ ?_
          simp [templateExtent, hclose, TemplateExtent.split]
        by_cases hslash : g.code = 92
        · refine (@ih hvalid true fun h ↦ ?_).same fun i ↦ ?_
          · exact absurd hslash (hprev h).2.2.1
          · simp [templateExtent, hslash, TemplateExtent.split_more]
        -- A dollar sign is followed by a brace on both sides or on neither.
        have hbrace : ∀ i, ((scalars i ps).head?.map (·.code) == some 123)
            = (same? ps).any fun g ↦ g.code == 123 := by
          intro i
          rw [← head?_pieces hvalid (p := (· == 123))
            (fun g hg ↦ by simpa using Glyph.code_ne_of_isStop hg (by decide)) i]
          cases (scalars i ps).head? <;> simp
        by_cases hopen : g.code == 36 && (same? ps).any fun g ↦ g.code == 123
        · match ps, hopen with
          | same h :: ps, hopen =>
            simp only [same?, Option.any_some, Bool.and_eq_true, beq_iff_eq] at hopen
            refine .two (b := (.substitution, false)) trivial
              (.inr (by rw [hopen.1, hopen.2]; rfl)) fun i ↦ ?_
            simp [templateExtent, hopen, TemplateExtent.split]
          | [], hopen | gap _ :: _, hopen => simp [same?] at hopen
        · refine (@ih hvalid false fun _ ↦ rfl).same fun i ↦ ?_
          rw [Bool.not_eq_true] at hopen
          simp only [templateExtent, Glyph.scalar_code, beq_eq_false_iff_ne.2 hclose,
            beq_eq_false_iff_ne.2 hslash, hbrace, hopen]
          rfl

end Script

end ColonGap
