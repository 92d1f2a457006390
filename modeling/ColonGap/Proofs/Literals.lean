import ColonGap.Proofs.Lists

/-!
# Literals, on both sides

Numbers, regular expressions and templates. The latter two are read by the parser: the lexers move
on inside the token before the next one is scanned, so that the token ends elsewhere than where the
lexer had found its end (`Spec.skip`).

A template or a regular expression with a gap in it is read alike on both sides, but its text is
not the same. That is why the contents of literals are compared for traces without gaps only.
-/

namespace ColonGap.Script

open Piece

variable {z : Respacing} {j j' j'' k : Joint}

/-! ### Tokens that are kept as they are spelt -/

/-- A text has at least as many bytes as characters. -/
theorem length_glyphs_le {qs rs : List Piece} (h : rs ++ qs <:+ z.pieces) (i : Side) :
    (glyphs i rs).length ≤ (text i rs).length := by
  have hwidth : ∀ g ∈ glyphs i rs, 0 < g.width := fun g hg ↦
    Utf8.width_pos_of_mem_glyphs (mem_glyphs_source h (i := i) (by simp [hg]))
  rw [text]
  generalize glyphs i rs = gs at hwidth
  induction gs with
  | nil => exact Nat.le_refl _
  | cons g gs ih =>
    have hg := hwidth g (by simp)
    have hgs := ih fun g hg ↦ hwidth g (by simp [hg])
    rw [Glyph.width] at hg
    rw [List.flatMap_cons, List.length_cons, List.length_append]
    omega

/-- The token is a word, a number or a string. -/
def Token.isVerbatim (t : Token) : Bool :=
  t.isName || t == .number || t == .string

theorem isVerbatim_of_mem_punctuators : ∀ p ∈ Token.punctuators, p.2.isVerbatim = false := by
  decide +kernel

/-- The end of a token that is kept as it is spelt is recorded exactly. -/
theorem Lexes.ended {x : Side → Lexeme} {t : Token} {ps qs : List Piece} (h : Lexes z x t ps qs)
    (ht : t.isVerbatim = true) : Ended z (fun i ↦ (x i).start + (x i).raw.length) qs := by
  have hsuffix := h.suffix
  have hstart := h.start
  have hfront : ∀ {front : List Piece}, front ++ qs <:+ z.pieces → front ≠ [] →
      (∀ i, (x i).start = z.offset i (front ++ qs)) → (∀ i, (x i).raw = text i front) →
      Ended z (fun i ↦ (x i).start + (x i).raw.length) qs := by
    intro front hps hne hoffset hraw
    refine ended_of_offset ((List.suffix_append _ _).trans hps) ?_ fun i ↦ ?_
    · match front, hne, hps with
      | p :: front, _, hps => exact ne_of_cons_suffix hps (List.suffix_append _ _)
    · rw [hoffset, hraw, Respacing.offset_append hps]
  cases h.spelt with
  | @word t gs qs w _ hgs _ _ _ _ _ hraw =>
    exact hfront hsuffix (by simpa using hgs) hstart fun i ↦ by simpa using hraw i
  | @number gs qs hgs _ _ hraw =>
    exact hfront hsuffix (by simpa using hgs) hstart fun i ↦ by simpa using hraw i
  | @string g c rs qs _ _ _ hraw =>
    have hsplit : same g :: (rs ++ same c :: qs) = same g :: (rs ++ [same c]) ++ qs := by simp
    rw [hsplit] at hsuffix hstart
    exact hfront hsuffix (by simp) hstart hraw
  | mark hs => exact absurd ht (by simp [isVerbatim_of_mem_punctuators _ hs])
  | privateName | endOfInput | illegal => exact absurd ht (by decide)

/-- A reserved word is spelt as it is. -/
theorem Lexes.keyword {x : Side → Lexeme} {t : Token} {ps qs : List Piece} (h : Lexes z x t ps qs)
    (ht : t.isName = true) (hkey : t ≠ .identifier ∧ t ≠ .escapedWord) :
    ∃ s, (s, t) ∈ Token.words ∧ ∀ i, (x i).raw = utf8 s := by
  have hsuffix := h.suffix
  cases h.spelt with
  | @word t gs qs w _ hgs hword hform hcount hclass _ hraw =>
    obtain ⟨hescaped, hof⟩ : w.escaped = false ∧ Token.ofWord? w.name = some t :=
      (hclass.resolve_left hkey.1).resolve_left hkey.2
    obtain ⟨s, hmem, hs⟩ := ofWord?_mem hof
    refine ⟨s, hmem, fun i ↦ ?_⟩
    have hi := hword .old
    have hname := @Word.name_eq_of_not_escaped true _ (Respacing.glyphs_text hsuffix .old)
    change Word.measure 0 true ((glyphs .old (gs.map same ++ qs)).map Glyph.scalar) = w at hi
    rw [hi, hcount, Piece.glyphs_append, glyphs_map_same, List.take_left] at hname
    rw [hraw, hs, hname hform hescaped]
  | mark hs => exact absurd ht (by simp [isName_of_mem_punctuators _ hs])
  | privateName | number | string | endOfInput | illegal => exact absurd ht (by decide)

/-- A name is spelt alike on both sides. -/
theorem Lexes.word {x : Side → Lexeme} {t : Token} {ps qs : List Piece} (h : Lexes z x t ps qs)
    (ht : t.isName = true) : ∃ raw, (∀ i, (x i).raw = raw) ∧ raw ≠ [] := by
  have hsuffix := h.suffix
  cases h.spelt with
  | @word t gs qs w _ hgs _ _ _ _ _ hraw =>
    refine ⟨_, hraw, fun hnil ↦ ?_⟩
    have hlength := length_glyphs_le hsuffix .old
    rw [glyphs_map_same, text_map_same, hnil] at hlength
    exact hgs (List.length_eq_zero_iff.1 (Nat.le_zero.1 hlength))
  | mark hs => exact absurd ht (by simp [isName_of_mem_punctuators _ hs])
  | privateName | number | string | endOfInput | illegal => exact absurd ht (by decide)

/-- A name takes up place on both sides. -/
theorem Lexes.offset_lt {x : Side → Lexeme} {t : Token} {ps qs : List Piece} (h : Lexes z x t ps qs)
    (ht : t.isName = true) (i : Side) : z.offset i ps < z.offset i qs := by
  obtain ⟨raw, hraw, hne⟩ := h.word ht
  obtain ⟨-, ps', hps, hqs, hstop, -⟩ := h.ended (by simp [Token.isVerbatim, ht])
  have hlength := List.length_pos_iff.2 hne
  have hi : (x i).start + (x i).raw.length = z.offset i ps' := hstop i
  rw [h.start, hraw] at hi
  have hle := Respacing.offset_le_of_suffix hqs hps i
  omega

/-- The number of bytes of a reserved word. -/
def Token.isOfLength (t : Token) (n : Nat) : Bool :=
  t.isName && t != .identifier && t != .escapedWord &&
    Token.words.all fun p ↦ p.2 != t || (utf8 p.1).length == n

/-- The end of a reserved word. -/
theorem Sound.endedWord (hs : Sound z j) (hp : Passed j j') {n : Nat}
    (hn : j.token.isOfLength n = true) :
    Ended z (fun i ↦ z.offset i j.place + n) (j'.last z) := by
  obtain ⟨x, l, hholds⟩ := hs
  have hx := hholds.lexes
  simp only [Token.isOfLength, Bool.and_eq_true, bne_iff_ne] at hn
  obtain ⟨⟨⟨hname, hid⟩, hescaped⟩, hwords⟩ := hn
  obtain ⟨s, hmem, hraw⟩ := hx.keyword hname ⟨hid, hescaped⟩
  have hlength : (utf8 s).length = n := by simpa using List.all_eq_true.1 hwords _ hmem
  have hended := hx.ended (by simp [Token.isVerbatim, hname])
  rw [hp.last_eq]
  simpa only [hx.start, hraw, hlength] using hended

/-- A number is spelt alike on both sides. -/
theorem Lexes.raw_number {x : Side → Lexeme} {t : Token} {ps qs : List Piece}
    (h : Lexes z x t ps qs) (ht : t = .number) : ∃ raw, ∀ i, (x i).raw = raw := by
  subst ht
  cases h.spelt with
  | number _ _ _ hraw => exact ⟨_, hraw⟩
  | word hname => exact absurd hname (by decide)
  | mark hs => exact absurd (isVerbatim_of_mem_punctuators _ hs) (by simp [Token.isVerbatim])

/-- After an error, what has been read is still of one shape. -/
theorem ReadsExpr.noted {e : Side → Expr} (h : ReadsExpr z j e j') :
    ReadsExpr z j e { j' with dirty := true } :=
  ⟨h.toReads.trans (grows_of_dirty rfl), fun hd ↦ absurd hd (by simp)⟩

section

variable {x : Side → Lexeme} (hx : Lexes z x j.token j.place j.stop) (hs : Sound z j)
  (hp : Passed j j') (hs' : Sound z j')

include hx hs hp hs'

/-- A leaf that covers a token. -/
theorem Lexes.readsExpr (hv : j.token.isVerbatim = true) {e : Side → Expr} (h : Reads z j e j')
    (hexact : ∀ i, (e i).endsExactly (z.source i) = true) (hform : (e .old).isCompound = true)
    (hspan : ∀ i, (e i).span = ⟨(x i).start, (x i).start + (x i).raw.length⟩) :
    ReadsExpr z j e j' := by
  refine .closed h hexact hform (fun hd ↦ ?_) fun hd ↦ ?_
  · simpa only [Expr.start, hspan, hx.start] using hs.between hp hs' (grows_refl _) hd
  · rw [hp.last_eq]
    simpa only [Expr.stop, hspan] using hx.ended hv

/-- A number is read alike, with an end that is recorded exactly. -/
theorem Lexes.readsNumber (ht : j.token = .number) :
    ReadsExpr z j (fun i ↦ .number ⟨(x i).start, (x i).start + (x i).raw.length⟩ (x i).raw) j' := by
  obtain ⟨raw, hraw⟩ := hx.raw_number ht
  refine hx.readsExpr hs hp hs' (by rw [ht]; rfl)
    (.leaf hp.grows (.number default raw) (fun v i ↦ ?_) fun i ↦ ?_) (fun i ↦ ?_) rfl fun _ ↦ rfl
  · simp [Expr.view, hraw]
  · simp [Tree.entries_expr, Expr.occurrences]
  · simp only [Expr.endsExactly]

end

/-- Two parts together have no gap if neither has one. -/
theorem isRigid_append (ps qs : List Piece) :
    isRigid (ps ++ qs) = (isRigid ps && isRigid qs) := by
  induction ps with
  | nil => rfl
  | cons p ps ih =>
    cases p with
    | same g => exact ih
    | gap blanks => rfl

/-- A string is the same on both sides, unless there is a gap in it. -/
theorem Lexes.string_eq {x : Side → Lexeme} {t : Token} {ps qs : List Piece} (h : Lexes z x t ps qs)
    (ht : t = .string) : ∃ front, ps = front ++ qs ∧
      (isRigid front = true → ∀ i, (x i).raw = (x .old).raw ∧ (x i).value = (x .old).value) := by
  subst ht
  cases h.spelt with
  | @string g c rs qs _ _ _ hraw hvalue =>
    refine ⟨same g :: (rs ++ [same c]), by simp, fun hrigid i ↦ ?_⟩
    have htext : ∀ us : List Piece, isRigid us = true → text i us = text .old us := by
      intro us hus
      cases i with
      | old => rfl
      | new => exact (text_eq_of_isRigid hus).symm
    have hrs : isRigid rs = true := by
      have hparts : isRigid (rs ++ [same c]) = true := hrigid
      rw [isRigid_append, Bool.and_eq_true] at hparts
      exact hparts.1
    refine ⟨by rw [hraw, hraw, htext _ hrigid], ?_⟩
    have hvalues := hvalue i
    rw [htext _ hrs, hvalue] at hvalues
    exact (Except.ok.inj hvalues).symm
  | word hname => exact absurd hname (by decide)
  | mark hs => exact absurd (isVerbatim_of_mem_punctuators _ hs) (by simp [Token.isVerbatim])

/-- A string is the current token. -/
theorem Lexes.readsString {x : Side → Lexeme} (hx : Lexes z x j.token j.place j.stop)
    (hs : Sound z j) (hp : Passed j j') (hs' : Sound z j') (ht : j.token = .string) :
    ReadsExpr z j (fun i ↦ .string ⟨(x i).start, (x i).start + (x i).raw.length⟩ (x i).raw
      (x i).value) j' := by
  obtain ⟨front, hfront, heq⟩ := hx.string_eq ht
  refine hx.readsExpr hs hp hs' (by rw [ht]; rfl)
    ⟨hp.grows, fun μ hμ i ↦ ?_, fun _ ↦ .nil fun _ ↦ rfl⟩ (fun i ↦ ?_) rfl fun _ ↦ rfl
  · cases μ with
    | shape | commas => rfl
    | bare =>
      obtain ⟨us, hus, hplace⟩ := hμ.2 (j.place, j.stop) (by simp [hp.trace])
      have hrigid : isRigid front = true := by
        rwa [← List.append_cancel_right (hplace.symm.trans hfront)]
      obtain ⟨hraw, hvalue⟩ := heq hrigid i
      simp only [Tree.view_expr, Expr.view, hraw, hvalue]
      rfl
  · simp only [Expr.endsExactly]

/-- The number that is the current token. -/
theorem Spec.numeral (ht : j.token = .number) :
    Spec z j (fun _ ↦ Script.numeral) (ReadsExpr z j) := by
  unfold Script.numeral
  refine of_sound fun hs ↦ lexeme fun x hx ↦ next fun j1 hs1 hp1 ↦ ?_
  have hnumber := hx.readsNumber hs hp1 hs1 ht
  obtain ⟨raw, hraw⟩ := hx.raw_number ht
  simp only [hraw] at hnumber ⊢
  exact choice (fun _ ↦ note (pure hnumber.noted)) fun _ ↦ pure hnumber

/-! ### Regular expressions -/

/-- Both readers note an error, or neither does. -/
theorem Paces.note_if {dirty b : Bool} {ps : List Piece} {r r' : Side → Reader}
    (h : Paces z dirty ps r) (offset : Side → Nat) (cause : Side → Cause)
    (hr : ∀ i, r' i = if b then (r i).note (offset i) (cause i) else r i) :
    Paces z (dirty || b) ps r' := by
  obtain rfl : r' = _ := funext hr
  cases b with
  | false => simpa using h
  | true => simpa using h.note offset cause

/-- A regular expression that is reported nowhere has a character behind its opening slash. -/
theorem one_le_regexExtent {cs : List Scalar} (h : (regexExtent .plain cs).2 ≠ .missingSlash) :
    1 ≤ (regexExtent .plain cs).1 := by
  cases cs with
  | nil => exact absurd rfl h
  | cons c rest =>
    rw [regexExtent]
    split
    · exact Nat.le_refl 1
    split
    · cases rest with
      | nil => exact Nat.le_refl 1
      | cons d rest =>
        simp only [Extent.atLineBreak]
        split <;> decide
    · exact Nat.le_add_left 1 _

/-- The text of a token without a gap is the same on both sides. -/
theorem Skipped.text_eq {front rs : List Piece} (h : Skipped j rs j')
    (hfront : j.place = front ++ rs)
    (hrigid : Trace.Rigid j'.trace) (i : Side) : text i front = text .old front := by
  obtain ⟨us, hus, hplace⟩ := hrigid (j.place, rs) (by simp [h.trace])
  have heq : us = front := List.append_cancel_right (hplace.symm.trans hfront)
  cases i with
  | old => rfl
  | new => exact (text_eq_of_isRigid (heq ▸ hus)).symm

/-- What follows the closing slash of a regular expression. -/
def regexTail (start : Nat) (tail body pattern : Bytes) (flagged : Bool) : Parse Expr := do
  if flagged && (← Parse.isAt .identifier) then
    let flags := (← Parse.lexeme).raw
    Parse.next
    let stop := (← get).lexer.reader.offset - 1
    let raw := tail.take (stop - start)
    return .regex ⟨start, start + raw.length⟩ raw pattern flags
  else return .regex ⟨start, start + body.length⟩ body pattern []

/-- The pattern of a regular expression with the given text. -/
def patternOf (ending : RegexEnding) (body : Bytes) : Bytes :=
  if ending == .closed then (body.drop 1).dropLast else []

/-- A regular expression is read by moving to its end and taking the token behind it as flags. -/
theorem run_regex {s : ParserState} {count : Nat} {ending : RegexEnding}
    (hm : regexExtent .plain s.lexer.reader.rest = (count, ending)) {body : Bytes} {flagged : Bool}
    (hbody : s.lexeme.tail.take ((s.lexer.advance count).reader.offset - s.lexeme.start) = body)
    (hflagged : (!((s.lexer.advance count).reader.current?.any isBlank)) = flagged) :
    Script.regex.run s
      = (Parse.next >>= fun _ ↦ regexTail s.lexeme.start s.lexeme.tail body (patternOf ending body)
          flagged).run { s with
            lexer := if ending == .missingSlash then
                (s.lexer.advance count).note s.lexeme.start .unterminatedRegex
              else s.lexer.advance count } := by
  have hnote : ∀ l : Lexer, (l.note s.lexeme.start .unterminatedRegex).reader.offset
      = l.reader.offset ∧ (l.note s.lexeme.start .unterminatedRegex).reader.current?
      = l.reader.current? := fun l ↦ by simp [Lexer.note, Reader.current?]
  subst hbody hflagged
  have hrun : Script.regex.run s = ((do
      let extent := regexExtent .plain s.lexer.reader.rest
      modify fun s ↦ { s with lexer := s.lexer.advance extent.1 }
      if extent.2 == .missingSlash then Parse.note s.lexeme.start .unterminatedRegex
      let reader := (← get).lexer.reader
      let body := s.lexeme.tail.take (reader.offset - s.lexeme.start)
      Parse.next
      Script.regexTail s.lexeme.start s.lexeme.tail body (patternOf extent.2 body)
        (!(reader.current?.any isBlank))) : Parse Expr).run s := rfl
  rw [hrun, hm]
  cases ending with
  | closed | unreported => rfl
  | missingSlash =>
    obtain ⟨hoffset, hcurrent⟩ := hnote (s.lexer.advance count)
    rw [← hoffset, ← hcurrent]
    rfl

/-- The token behind a regular expression may be its flags. -/
theorem Spec.regexTail {front rs : List Piece} (hs : Sound z j) (hfront : j.place = front ++ rs)
    (hp : Skipped j rs j') (ending : RegexEnding) (flagged : Bool)
    (hlength : j'.dirty = false → ∀ i, 2 ≤ (text i front).length) :
    Spec z j' (fun i ↦ Script.regexTail (z.offset i j.place) (text i j.place) (text i front)
      (patternOf ending (text i front)) flagged) (ReadsExpr z j) := by
  have hplace := hs.suffix
  rw [hfront] at hplace
  have hrs : rs <:+ j.place := hfront ▸ List.suffix_append _ _
  have hends : ∀ i, z.offset i j.place + (text i front).length = z.offset i rs := fun i ↦ by
    rw [hfront]
    exact (Respacing.offset_append hplace i).symm
  have hpattern : ∀ i, 2 ≤ (text i front).length →
      2 + (patternOf ending (text i front)).length ≤ (text i front).length := by
    intro i hi
    unfold patternOf
    split
    · rw [List.length_dropLast, List.length_drop]
      omega
    · simpa using hi
  unfold Script.regexTail
  refine of_sound fun hs1 ↦ isAt ?_
  split
  case isTrue hflags =>
    have htoken : j'.token = .identifier := by simp_all
    refine lexeme fun x hx ↦ next fun j2 hs2 hp2 ↦ read (g := fun _ s ↦ s) (fun _ _ ↦ rfl)
      fun s hs' ↦ pure ?_
    obtain ⟨flags, hflags, hne⟩ := hx.word (by rw [htoken]; rfl)
    have hoffset : ∀ i, (s i).lexer.reader.offset = z.offset i j2.ahead := fun i ↦
      (hs'.holds.paces.stands i).offset
    simp only [hoffset, hflags]
    refine ⟨⟨hp.grows.trans hp2.grows, fun μ hμ i ↦ ?_, fun _ ↦ .nil fun _ ↦ rfl⟩, fun hd ↦
      ⟨?_, ⟨false, fun i ↦ ?_, by simp⟩, fun h ↦ absurd h Bool.false_ne_true, rfl⟩⟩
    · cases μ with
      | shape | commas => rfl
      | bare =>
        have hd1 := hp2.clean hμ.1
        have htext := hp.text_eq hfront (hμ.2.of_suffix (hp2.grows.trace hμ.1))
        -- The text is cut before the flags, which start behind the closing slash.
        have hcut : ∀ i, ((text i j.place).take
            (z.offset i j2.ahead - 1 - z.offset i j.place)).take
              (2 + (patternOf ending (text i front)).length)
            = (text i front).take (2 + (patternOf ending (text i front)).length) := by
          intro i
          have hle := hpattern i (hlength hd1 i)
          have hend := hends i
          have hlt := hx.offset_lt (by rw [htoken]; rfl) i
          have hfirst : z.offset i rs ≤ z.offset i j'.place := by
            have hsuffix := (hs1.follows hd1).suffix
            rw [← hp.last_eq (z := z)]
            exact Respacing.offset_le_of_suffix hsuffix (hs1.last_pieces hd1) i
          have hlast : z.offset i j'.stop ≤ z.offset i j2.ahead := by
            have hj2 := hs'.holds
            have hsuffix : j2.ahead <:+ j2.last z := hj2.ahead.trans
              (hs2.stop_suffix.trans (hs2.follows hμ.1).suffix)
            rw [← hp2.last_eq (z := z)]
            exact Respacing.offset_le_of_suffix hsuffix (hs2.last_pieces hμ.1) i
          rw [List.take_take, hfront, text_append, Nat.min_eq_left (by rw [← hfront]; omega),
            List.take_append_of_le_length hle]
        have hempty : flags.isEmpty = false := by simpa using hne
        simp only [htext] at hcut
        simp only [Tree.view_expr, Expr.view, hempty, htext, hcut]
        rfl
    · exact hs.between_of_skipped hp hrs hs2 hp2.grows hd
    · simp only [Expr.endsExactly]
      simpa using hne
  · have hrange : j'.dirty = false → Between z j j' fun i ↦ some (z.offset i j.place) :=
      hs.between_of_skipped hp hrs hs1 (grows_refl _)
    refine pure (.closed ⟨hp.grows, fun μ hμ i ↦ ?_, fun _ ↦ .nil fun _ ↦ rfl⟩ (fun i ↦ ?_) rfl
      hrange fun hd ↦ ?_)
    · cases μ with
      | shape | commas => rfl
      | bare =>
        simp only [hp.text_eq hfront hμ.2]
        rfl
    · simp only [Expr.endsExactly, List.isEmpty_nil]
    · rw [hp.last_eq]
      refine ended_of_offset (hrs.trans hs.suffix) ?_ hends
      cases front with
      | nil => exact absurd (hlength hd .old) (by simp)
      | cons p front => exact ne_of_cons_suffix hplace (List.suffix_append _ _)

/-- A regular expression is read alike. -/
theorem Spec.regex {cs : List Nat} (ht : j.token.spelling = some (47 :: cs)) :
    Spec z j (fun _ ↦ Script.regex) (ReadsExpr z j) := by
  intro s hs
  have hx := hs.holds.lexes
  have hpaces := hs.holds.paces
  obtain ⟨qs, rs, ending, hahead, -, hgap, hmeasure⟩ :=
    @even_regexExtent _ hpaces.valid .plain fun _ ↦ rfl
  rw [hahead] at hpaces hmeasure
  obtain ⟨dirty, hdirty, hadvanced⟩ := hpaces.advance
  -- The whole token, from the opening slash on.
  obtain ⟨gs, hplace, hcodes⟩ := hs.sound.exists_glyphs ht
  obtain ⟨mid, hmid⟩ := hs.holds.ahead
  have hfront : j.place = (gs.map same ++ mid ++ qs) ++ rs := by
    rw [hplace, ← hmid, hahead]
    simp
  have hsuffix := hx.suffix
  rw [hfront] at hsuffix
  have hm : ∀ i, regexExtent .plain (s i).lexer.reader.rest = ((glyphs i qs).length, ending) :=
    fun i ↦ by rw [(hpaces.stands i).rest, hmeasure]
  have hlength : ending ≠ .missingSlash → ∀ i, 2 ≤ (text i (gs.map same ++ mid ++ qs)).length := by
    intro hending i
    have hone := @one_le_regexExtent (s i).lexer.reader.rest (by rw [hm]; exact hending)
    rw [hm] at hone
    have hle := length_glyphs_le hsuffix i
    have hgs : gs.length = cs.length + 1 := by simpa using congrArg List.length hcodes
    simp only [Piece.glyphs_append, List.length_append, glyphs_map_same] at hle
    dsimp only at hone
    omega
  have hbody : ∀ i, (s i).lexeme.tail.take
      (((s i).lexer.advance (glyphs i qs).length).reader.offset - (s i).lexeme.start)
      = text i (gs.map same ++ mid ++ qs) := by
    intro i
    rw [hx.tail, hx.start, hfront]
    have hoffset := (hadvanced.stands i).offset
    simp only [Lexer.advance, hoffset]
    exact take_text hsuffix i
  have hflagged : ∀ i, (!(((s i).lexer.advance (glyphs i qs).length).reader.current?.any isBlank))
      = !((same? rs).any fun g ↦ isBlank g.code) := by
    intro i
    rw [Lexer.advance, hadvanced.current? hgap i, Option.any_map]
  refine skip hs (dirty || ending == .missingSlash) rs
    (fun i ↦ run_regex (hm i) (hbody i) (hflagged i)) ?_ ?_ ?_ (hfront ▸ List.suffix_append _ _) ?_
  · refine hadvanced.note_if (fun i ↦ (s i).lexeme.start) (fun _ ↦ .unterminatedRegex) fun i ↦ ?_
    cases ending <;> rfl
  · obtain ⟨b, hb⟩ := hs.holds.insert
    refine ⟨b, fun i ↦ ?_⟩
    cases ending <;> exact hb i
  · intro hd
    rw [Bool.or_eq_false_iff] at hd
    cases hj : j.dirty with
    | false => rfl
    | true => exact absurd (hdirty hj) (by simp [hd.1])
  · intro j' hs' hp hd
    simp only [hx.start, hx.tail]
    refine Spec.regexTail hs.sound hfront hp ending _ fun hclean ↦ hlength ?_
    have hdirty := hd hclean
    rintro rfl
    simp at hdirty

/-! ### Templates -/

instance : Tree TemplateText := ⟨View.text, fun _ ↦ []⟩

@[simp] theorem Tree.view_templateText :
    (Tree.view : View → TemplateText → TemplateText) = View.text := rfl

@[simp] theorem Tree.entries_templateText (t : TemplateText) : Tree.entries t = [] := rfl

@[simp] theorem Tree.entries_templateTexts (ts : List TemplateText) : Tree.entries ts = [] := by
  induction ts with
  | nil => rfl
  | cons t ts ih => rw [Tree.entries_cons, Tree.entries_templateText, ih]; rfl

/-- The number of marks that end a stretch of template text. -/
def Ending.marks : Ending → Nat
  | .closed => 1
  | .substitution => 2
  | .broken => 0

/-- A stretch of template text whose value has been found. -/
def cookedText (tagged : Bool) (ending : Ending) (raw : Bytes) (value : Except Cause (List UInt16))
    (after : Reader) : Parse (TemplateText × Ending × Nat) := do
  match value with
  | .ok units => return (⟨raw, some units⟩, ending, after.offset - 1)
  | .error cause =>
    if !tagged then Parse.note after.behind cause
    return (⟨raw, none⟩, ending, after.offset - 1)

/-- A stretch of template text that has been measured. -/
def measuredText (tagged : Bool) (before : Reader) (t : TemplateExtent) :
    Parse (TemplateText × Ending × Nat) := do
  modify fun s ↦ { s with lexer := { s.lexer.advance t.extent.count with insertSemicolon := true } }
  let after := (← get).lexer.reader
  let raw := Escape.normalizeBreaks
    (before.tail.take (after.offset - t.extent.ending.marks - before.offset))
  if t.extent.ending == .broken then Parse.note after.behind .unexpectedEnd
  cookedText tagged t.extent.ending raw (cookTemplate t.badDigit raw) after

/-- Whether there is no value. -/
def isError {ε α : Type} : Except ε α → Bool
  | .ok _ => false
  | .error _ => true

/-- Cooking template text gives its value, and changes nothing of the parser but the lexer. -/
theorem run_cookedText (tagged : Bool) (ending : Ending) (raw : Bytes)
    (value : Except Cause (List UInt16)) (after : Reader) (s : ParserState) :
    ∃ l : Lexer, (cookedText tagged ending raw value after).run s
        = ((⟨raw, value.toOption⟩, ending, after.offset - 1), { s with lexer := l }) ∧
      l.insertSemicolon = s.lexer.insertSemicolon ∧ ∃ cause,
        l.reader = if !tagged && isError value then s.lexer.reader.note after.behind cause
          else s.lexer.reader := by
  cases value with
  | ok units =>
    refine ⟨s.lexer, ?_, rfl, .unexpectedEnd, ?_⟩
    · rfl
    · cases tagged <;> rfl
  | error cause =>
    cases tagged with
    | true => exact ⟨s.lexer, rfl, rfl, cause, rfl⟩
    | false => exact ⟨s.lexer.note after.behind cause, rfl, rfl, cause, rfl⟩

/-- The reader behind a stretch of template text, with the errors in the text. -/
def Ending.noted (ending : Ending) (r : Reader) : Reader :=
  if ending == .broken then r.note r.behind .unexpectedEnd else r

/-- A stretch of template text is read by moving to its end, and then cooking its contents. -/
theorem run_templateText {tagged : Bool} {s : ParserState} {count : Nat} {ending : Ending}
    {badDigit : Bool} (ht : templateExtent false s.lexer.reader.rest = ⟨⟨count, ending⟩, badDigit⟩)
    {r : Reader} (hr : s.lexer.reader.advance count = r) {raw : Bytes}
    (hraw : Escape.normalizeBreaks (s.lexer.reader.tail.take
      (r.offset - ending.marks - s.lexer.reader.offset)) = raw) :
    ∃ l : Lexer, (templateText tagged).run s
        = ((⟨raw, (cookTemplate badDigit raw).toOption⟩, ending, r.offset - 1),
          { s with lexer := l }) ∧ l.insertSemicolon = true ∧
      ∃ cause, l.reader = if !tagged && isError (cookTemplate badDigit raw) then
        (ending.noted r).note r.behind cause else ending.noted r := by
  have hrun : (templateText tagged).run s = (measuredText tagged s.lexer.reader
      (templateExtent false s.lexer.reader.rest)).run s := rfl
  rw [hrun, ht]
  subst hr hraw
  cases ending with
  | closed | substitution | broken =>
    exact run_cookedText tagged _ _ _ _ _

theorem length_templateMarks (ending : Ending) (badDigit : Bool) :
    (templateMarks (ending, badDigit)).length = ending.marks := by
  cases ending <;> rfl

/-- Readers that have met an error may note more. -/
theorem Paces.note_any {ps : List Piece} {r r' : Side → Reader} (h : Paces z true ps r)
    (hr : ∀ i, ∃ (b : Bool) (offset : Nat) (cause : Cause),
      r' i = if b then (r i).note offset cause else r i) : Paces z true ps r' := by
  refine ⟨h.suffix, fun i ↦ ?_, fun i ↦ ?_⟩
  · obtain ⟨b, offset, cause, hi⟩ := hr i
    rw [hi]
    cases b with
    | false => exact h.stands i
    | true => exact (h.stands i).note offset cause
  · obtain ⟨b, offset, cause, hi⟩ := hr i
    rw [hi]
    cases b with
    | false => exact h.error i
    | true => exact Reader.isSome_error_note _ _ _

section

variable {inner rs : List Piece} {marks : List Glyph} {ending : Ending} {badDigit : Bool}

/-- In front of its marks, template text has as many bytes as its contents. -/
theorem length_marks (h : inner ++ marks.map same ++ rs <:+ z.pieces)
    (hmarks : marks.map Glyph.code = templateMarks (ending, badDigit)) (i : Side) :
    z.offset i rs - ending.marks = z.offset i (inner ++ marks.map same ++ rs)
      + (text i inner).length := by
  have hlength : marks.length = ending.marks := by
    rw [← length_templateMarks ending badDigit, ← hmarks, List.length_map]
  have hbytes : (marks.flatMap Glyph.bytes).length = marks.length := by
    have hsuffix : marks.map same ++ rs <:+ z.pieces :=
      (List.suffix_append inner _).trans (by simpa using h)
    have hsmall : ∀ g ∈ marks, g.code < 0x80 := by
      intro g hg
      have hmem : g.code ∈ templateMarks (ending, badDigit) := hmarks ▸ List.mem_map_of_mem hg
      revert hmem
      cases ending <;> simp [templateMarks] <;> omega
    have hone : ∀ g ∈ marks, g.bytes.length = 1 := fun g hg ↦ by
      have hmem := mem_glyphs_source hsuffix (i := .old) (g := g) (by simp [hg])
      rw [Utf8.bytes_of_code_lt hmem (hsmall g hg)]
      rfl
    rw [List.length_flatMap, List.map_congr_left hone]
    simp
  have hadd := Respacing.offset_append h i
  rw [text_append, text_map_same, List.length_append] at hadd
  omega

/-- The value of a stretch of template text is found on both sides or on neither. -/
theorem exists_isError (h : inner ++ marks.map same ++ rs <:+ z.pieces)
    (hmarks : marks.map Glyph.code = templateMarks (ending, badDigit)) (hending : ending ≠ .broken) :
    ∃ b, ∀ i, isError (cookTemplate badDigit (Escape.normalizeBreaks (text i inner))) = b := by
  cases badDigit with
  | true => exact ⟨true, fun _ ↦ rfl⟩
  | false =>
    match marks, ending, hmarks, hending with
    | g :: marks, ending, hmarks, hending =>
      have hg : g.code = 96 ∨ g.code = 36 := by
        cases ending <;> simp_all [templateMarks]
      have hsuffix : inner ++ same g :: (marks.map same ++ rs) <:+ z.pieces := by simpa using h
      have hvalid := Valid.of_append_left (z.valid.of_suffix hsuffix) (by omega)
      have hcut := cut_of_append_left hsuffix (by omega)
      rcases (Escape.reading_normalized true).agree hvalid hcut with hok | herror
      · refine ⟨false, fun i ↦ ?_⟩
        obtain ⟨found, hfound, -⟩ := hok i
        simp only [cookTemplate, Bool.false_eq_true, if_false]
        rw [hfound]
        rfl
      · refine ⟨true, fun i ↦ ?_⟩
        obtain ⟨cause, hcause⟩ := herror i
        simp only [cookTemplate, Bool.false_eq_true, if_false]
        rw [hcause]
        rfl
    | [], ending, hmarks, hending => cases ending <;> simp_all [templateMarks]

end

/-- A stretch of template text that both sides have read, up to `rs`. -/
structure ReadsText (z : Respacing) (j : Joint) (texts : Side → TemplateText) (dirty : Bool)
    (rs : List Piece) : Prop where
  clean : dirty = false → j.dirty = false
  suffix : rs <:+ j.place
  moved : dirty = false → rs ≠ z.pieces
  alike : dirty = false → ∀ front, j.place = front ++ rs → isRigid front = true →
    ∀ i, texts i = texts .old

/-- A stretch of template text is read alike: it ends at the same place and in the same way. -/
theorem exists_templateText (tagged : Bool) {s : Side → ParserState} (hs : Twin z j s) :
    ∃ (texts : Side → TemplateText) (ending : Ending) (l : Side → Lexer) (dirty : Bool)
      (rs : List Piece), (∀ i, (templateText tagged).run (s i)
        = ((texts i, ending, z.offset i rs - 1), { s i with lexer := l i })) ∧
      Paces z dirty rs (fun i ↦ (l i).reader) ∧ (∀ i, (l i).insertSemicolon = true) ∧
      ReadsText z j texts dirty rs := by
  have hpaces := hs.holds.paces
  obtain ⟨qs, rs, ⟨ending, badDigit⟩, hahead, ⟨inner, marks, rfl, hmarks⟩, -, hmeasure⟩ :=
    @even_templateExtent _ hpaces.valid false fun _ ↦ rfl
  rw [hahead] at hpaces hmeasure
  obtain ⟨dirty, hdirty, hadvanced⟩ := hpaces.advance
  have hsuffix := hpaces.suffix
  have hraw : ∀ i, Escape.normalizeBreaks ((s i).lexer.reader.tail.take
      (((s i).lexer.reader.advance (glyphs i (inner ++ marks.map same)).length).offset
        - ending.marks - (s i).lexer.reader.offset))
      = Escape.normalizeBreaks (text i inner) := by
    intro i
    have hoffset := (hadvanced.stands i).offset
    rw [hoffset, (hpaces.stands i).offset, (hpaces.stands i).tail]
    rw [length_marks hsuffix hmarks, Nat.add_sub_cancel_left, List.append_assoc, text_append,
      List.take_left]
  have hm : ∀ i, templateExtent false (s i).lexer.reader.rest
      = ⟨⟨(glyphs i (inner ++ marks.map same)).length, ending⟩, badDigit⟩ := by
    intro i
    have hi := hmeasure i
    simp only [TemplateExtent.split, Prod.mk.injEq] at hi
    rw [(hpaces.stands i).rest, ← hi.1, ← hi.2.1, ← hi.2.2]
  have hrun := fun i ↦ @run_templateText tagged _ _ _ _ (hm i) _ rfl _ (hraw i)
  choose l hrun hinsert cause hl using hrun
  simp only [(hadvanced.stands _).offset] at hrun
  obtain ⟨b, hb⟩ : ∃ b, ending ≠ .broken →
      ∀ i, isError (cookTemplate badDigit (Escape.normalizeBreaks (text i inner))) = b := by
    by_cases hending : ending = .broken
    · exact ⟨false, fun h ↦ absurd hending h⟩
    · obtain ⟨b, hb⟩ := exists_isError hsuffix hmarks hending
      exact ⟨b, fun _ ↦ hb⟩
  have hfirst : Paces z (dirty || ending == .broken) rs fun i ↦ ending.noted
      ((s i).lexer.reader.advance (glyphs i (inner ++ marks.map same)).length) :=
    hadvanced.note_if _ (fun _ ↦ .unexpectedEnd) fun _ ↦ rfl
  refine ⟨_, ending, l, (dirty || ending == .broken) || (!tagged && b), rs, hrun, ?_, hinsert, ?_⟩
  · by_cases hending : ending = .broken
    · subst hending
      have hdirty : (dirty || Ending.broken == .broken) = true := Bool.or_true dirty
      rw [hdirty] at hfirst ⊢
      exact hfirst.note_any fun i ↦ ⟨_, _, _, hl i⟩
    · refine hfirst.note_if (fun i ↦ ((s i).lexer.reader.advance
        (glyphs i (inner ++ marks.map same)).length).behind) cause fun i ↦ ?_
      rw [hl, hb hending]
  · obtain ⟨front, hfront⟩ := hs.holds.ahead.trans hs.sound.stop_suffix
    rw [hahead] at hfront
    have hrs : rs <:+ j.place := ⟨front ++ (inner ++ marks.map same), by simpa using hfront⟩
    refine ⟨fun hd ↦ ?_, hrs, fun hd ↦ ?_, fun hd front' hfront' hrigid i ↦ ?_⟩
    · simp only [Bool.or_eq_false_iff] at hd
      cases hj : j.dirty with
      | false => rfl
      | true => exact absurd (hdirty hj) (by simp [hd.1.1])
    · have hending : ending ≠ .broken := by
        rintro rfl
        simp at hd
      cases marks with
      | nil => cases ending <;> simp_all [templateMarks]
      | cons g marks =>
        have hlast : same g :: (marks.map same ++ rs) <:+ z.pieces :=
          (List.suffix_append inner _).trans (by simpa using hsuffix)
        exact ne_of_cons_suffix hlast (List.suffix_append _ _)
    · have heq : front' = front ++ (inner ++ marks.map same) := by
        refine List.append_cancel_right (hfront'.symm.trans ?_)
        rw [← hfront]
        simp
      rw [heq, isRigid_append, isRigid_append, Bool.and_eq_true, Bool.and_eq_true] at hrigid
      have htext : text i inner = text .old inner := by
        cases i with
        | old => rfl
        | new => exact (text_eq_of_isRigid hrigid.2.1).symm
      rw [htext]

/-- Two things that were read from the same state are a pair that was read. -/
theorem Reads.both {α β : Type} [Tree α] [Tree β] {a : Side → α} {b : Side → β}
    (ha : Reads z j a j') (hb : Reads z j b j') : Reads z j (fun i ↦ (a i, b i)) j' where
  grows := ha.grows
  alike μ hμ i := by
    have ha' := ha.alike μ hμ i
    have hb' := hb.alike μ hμ i
    rw [Tree.view_pair, Tree.view_pair, ha', hb']
  entries hd := (ha.entries hd).append (hb.entries hd)

/-- Template text that was read is read up to where the lexer has skipped. -/
theorem ReadsText.reads {texts : Side → TemplateText} {dirty : Bool} {rs : List Piece}
    (h : ReadsText z j texts dirty rs) (hp : Skipped j rs j')
    (hd : j'.dirty = false → dirty = false) : Reads z j texts j' where
  grows := hp.grows
  alike μ hμ i := by
    cases μ with
    | shape | commas => rfl
    | bare =>
      obtain ⟨front, hrigid, hfront⟩ := hμ.2 (j.place, rs) (by simp [hp.trace])
      have heq := h.alike (hd hμ.1) front hfront hrigid i
      rw [heq]
      rfl
  entries _ := .nil fun _ ↦ rfl

/-- A stretch of template text and the token behind it. -/
theorem Spec.templateText {tagged : Bool} {β : Type} {R : (Side → β) → Joint → Prop}
    {f : Side → TemplateText × Ending × Nat → Parse β}
    (h : ∀ texts ending rs j', Sound z j' → Skipped j rs j' → rs <:+ j.place →
      (j'.dirty = false → rs ≠ z.pieces) → Reads z j texts j' →
      Spec z j' (fun i ↦ f i (texts i, ending, z.offset i rs - 1)) R) :
    Spec z j (fun i ↦ do
      let r ← Script.templateText tagged
      Parse.next
      f i r) R := by
  intro s hs
  obtain ⟨texts, ending, l, dirty, rs, hrun, hpaces, hinsert, htext⟩ :=
    exists_templateText tagged hs
  refine skip (f := fun i ↦ f i (texts i, ending, z.offset i rs - 1)) hs (l := l) dirty rs
    (fun i ↦ ?_)
    hpaces ⟨true, hinsert⟩ htext.clean htext.suffix fun j' hs' hp hd ↦ ?_
  · rw [StateT.run_bind, hrun]
    rfl
  · exact h texts ending rs j' hs' hp htext.suffix (fun hj ↦ htext.moved (hd hj)) (htext.reads hp hd)

/-- What has been read of a template literal that starts at `j`. -/
structure ReadsTemplate (z : Respacing) (j : Joint) (parts : Side → List TemplateText × List Expr)
    (j' : Joint) : Prop where
  texts : Reads z j (fun i ↦ (parts i).1.reverse) j'
  items : Reads z j (fun i ↦ (parts i).2.reverse) j'

/-- **Templates.** -/
theorem Spec.template {g : Grammar} (hg : g.Even z) {tag : Side → Option Expr}
    (htag : Reads z k tag j) : Spec z j (fun i ↦ Script.template g (tag i)) (ReadsExpr z k) := by
  have hsome : ∀ i, (tag i).isSome = (tag .old).isSome := fun i ↦ by
    simpa using congrArg Option.isSome (htag.alike .shape trivial i)
  unfold Script.template
  refine of_sound fun hs ↦ here ?_
  refine loop (I := ReadsTemplate z j) ?_ ⟨.nil (grows_refl _), .nil (grows_refl _)⟩
    fun j' hd ↦ .const hd _
  intro parts j1 hs1 hparts
  simp only [hsome]
  refine templateText ?_
  intro texts ending rs j2 hs2 hp2 hrs hmoved htext
  have htexts := hparts.texts.snoc htext
  have hplace : j2.dirty = false → rs <:+ j.place := fun hd ↦
    hrs.trans (hparts.texts.grows.place (hp2.clean hd))
  dsimp only
  refine choice (fun _ ↦ ?_) fun _ ↦ ?_
  · refine bind (expression hg) fun item j3 hs3 hitem ↦ isAt ?_
    have hmore : ∀ j4, Grows j3 j4 → ReadsTemplate z j
        (fun i ↦ (texts i :: (parts i).1, item i :: (parts i).2)) j4 := fun j4 hg4 ↦
      ⟨htexts.trans (hitem.grows.trans hg4),
        (hparts.items.trans hp2.grows).snoc (hitem.toReads.trans hg4)⟩
    refine choice (fun _ ↦ token (unexpected ?_)) fun _ ↦ pure_inl (hmore _ (grows_refl _))
    exact pure_inl (hmore _ (grows_of_dirty rfl))
  · refine pure_inr (.closed ?_ (fun i ↦ ?_) rfl (fun hd ↦ ?_) fun hd ↦ ?_)
    · refine ((htag.trans (hparts.texts.grows.trans hp2.grows)).both
        ((htexts.both (hparts.items.trans hp2.grows)).after htag.grows)).node
        (fun p ↦ .template default p.1 p.2.1 p.2.2) (fun v i ↦ ?_) fun i ↦ ?_
      · simp [Expr.view]
      · simp [Tree.entries_expr, Expr.occurrences]
    · simp only [Expr.endsExactly]
    · intro i n hn
      obtain rfl := Option.some.inj hn
      have hclean := (hparts.texts.grows.trans hp2.grows).clean hd
      have hfirst := (hs.follows hclean).suffix
      refine ⟨(hs.last_le htag.grows hclean i).trans ?_, ?_⟩
      · exact Respacing.offset_le_of_suffix hfirst (hs.last_pieces hclean) i
      · rw [hp2.last_eq]
        exact Respacing.offset_le_of_suffix (hplace hd) hs.suffix i
    · rw [hp2.last_eq]
      have hpieces := hrs.trans hs1.suffix
      refine ended_of_offset hpieces (hmoved hd) fun i ↦ ?_
      exact Nat.sub_add_cancel (Nat.pos_of_ne_zero (offset_pos hpieces (hmoved hd) i))

end ColonGap.Script
