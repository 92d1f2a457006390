import ColonGap.Proofs.Reads

/-!
# Steps that productions share

The ends of statements, steps in a changed scope, skipping after an error, and names. For the
brackets and operators that productions pass, `Sound.single` tells which character they are.
-/

namespace ColonGap.Script

open Piece

variable {z : Respacing} {j j' j'' k : Joint}

/-! ### Tokens of one character -/

/-- The punctuator that a token is made of. -/
def Token.spelling (t : Token) : Option (List Nat) :=
  (Token.punctuators.find? fun p ↦ p.2 == t).map fun p ↦ codesOf p.1

theorem codesOf_eq_of_mem : ∀ p ∈ Token.punctuators, p.2.spelling = some (codesOf p.1) := by
  decide +kernel

theorem isName_of_mem_punctuators : ∀ p ∈ Token.punctuators, p.2.isName = false := by
  decide +kernel

/-- A name has no fixed spelling. -/
theorem Token.spelling_of_isName {t : Token} (h : t.isName = true) : t.spelling = none := by
  revert h
  cases t <;> decide

/-- A punctuator covers just the characters it is spelt with. -/
theorem Sound.exists_glyphs (h : Sound z j) {cs : List Nat} (hcs : j.token.spelling = some cs) :
    ∃ gs : List Glyph, j.place = gs.map same ++ j.stop ∧ gs.map Glyph.code = cs := by
  obtain ⟨x, l, hholds⟩ := h
  have hspelt := hholds.lexes.spelt
  generalize j.token = t at hspelt hcs
  generalize j.place = ps at hspelt
  generalize j.stop = qs at hspelt
  cases hspelt with
  | word ht =>
    rw [Token.spelling_of_isName ht] at hcs
    exact absurd hcs (by simp)
  | @mark t s gs _ hs hcodes =>
    rw [codesOf_eq_of_mem _ hs, Option.some.injEq] at hcs
    exact ⟨gs, rfl, hcodes.trans hcs⟩
  | privateName | number | string | endOfInput | illegal => cases hcs

/-- A token that is spelt with one character is this character on both sides. -/
theorem Sound.single (h : Sound z j) {c : Nat} (hc : j.token.spelling = some [c]) :
    ∃ g, j.place = same g :: j.stop ∧ g.code = c := by
  obtain ⟨gs, hplace, hcodes⟩ := h.exists_glyphs hc
  obtain ⟨g, rfl, hg⟩ := List.map_eq_singleton_iff.1 hcodes
  exact ⟨g, hplace, hg⟩

/-- Behind a punctuator one is no longer at the start. -/
theorem Sound.stop_ne (h : Sound z j) {c : Nat} {cs : List Nat}
    (hcs : j.token.spelling = some (c :: cs)) : j.stop ≠ z.pieces := by
  obtain ⟨gs, hplace, hcodes⟩ := h.exists_glyphs hcs
  have hsuffix := h.suffix
  match gs, hcodes with
  | g :: gs, _ =>
    rw [hplace] at hsuffix
    exact ne_of_cons_suffix hsuffix (List.suffix_append _ _)

/-! ### Names -/

/-- After skipping, the last token ends where was skipped to. -/
theorem Skipped.last_eq {rs : List Piece} (h : Skipped j rs j') : j'.last z = rs := by
  rw [Joint.last, h.trace]
  rfl

/-- The recorded end of a name. -/
theorem Lexes.ends {x : Side → Lexeme} {t : Token} {ps qs : List Piece} (h : Lexes z x t ps qs)
    (ht : t.isName = true) {stop : Side → Nat}
    (hstop : ∀ i, stop i = (Parse.nameSpan (x i).start (x i).name).stop) :
    (∃ b, (∀ i, standsBefore (z.source i) (stop i) (x i).name = b) ∧
      (b = true → Ended z stop qs)) ∧ Named z stop qs := by
  have hsuffix := h.suffix
  have hstart := h.start
  have hspelt := h.spelt
  cases hspelt with
  | @word t gs qs w _ hgs hword hform hcount _ hname =>
    have hends : ∀ i, stop i = z.offset i (gs.map same ++ qs) + nameLength w.name := by
      intro i
      rw [hstop, nameSpan_eq, hstart, hname]
    constructor
    · obtain ⟨b, hb, hoffset⟩ := standsBefore_word hsuffix hword hform hcount hends
      refine ⟨b, fun i ↦ by rw [hname, hb], fun htrue ↦ ?_⟩
      refine ended_of_offset ((List.suffix_append _ _).trans hsuffix) ?_ (hoffset htrue)
      match gs, hgs, hsuffix with
      | g :: gs, _, hsuffix => exact ne_of_cons_suffix hsuffix (List.suffix_append _ _)
    · exact ⟨gs, qs, w, 0, hsuffix, hword, hform, hcount, Nat.zero_le _, hends, List.suffix_rfl,
        fun _ ↦ .refl⟩
  | mark hs => exact absurd ht (by simp [isName_of_mem_punctuators _ hs])
  | privateName | number | string | endOfInput | illegal => exact absurd ht (by decide)

/-- The current token starts behind the one before it, and before the next one ends. -/
theorem start_bounds {rs : List Piece} (hj : Sound z j) (hj' : Sound z j') (hp : Skipped j rs k)
    (hrs : rs <:+ j.place) (hg : Grows k j') (hd : j'.dirty = false) (i : Side) :
    z.offset i (j.last z) ≤ z.offset i j.place ∧ z.offset i j.place ≤ z.offset i (j'.last z) := by
  have hclean := (hp.grows.trans hg).clean hd
  have hlast := hj'.last_suffix hg hd
  rw [hp.last_eq] at hlast
  exact ⟨Respacing.offset_le_of_suffix (hj.follows hclean).suffix (hj.last_pieces hclean) i,
    Respacing.offset_le_of_suffix (hlast.trans hrs) hj.suffix i⟩

namespace Spec

variable {α β : Type} {R : (Side → β) → Joint → Prop}

/-! ### The ends of statements -/

/-- An optional semicolon is passed on both sides or on none. -/
theorem optionalSemicolon_alone :
    Spec z j (fun _ ↦ Parse.optionalSemicolon) fun _ j' ↦ Grows j j' := by
  unfold Parse.optionalSemicolon
  refine token ?_
  split
  · exact alone (next fun j' _ hj' ↦ pure hj'.grows)
  refine implicitSemicolon ?_
  split
  · exact alone (takeImplicitSemicolon (pure (grows_refl j)))
  split
  · exact alone (discard_expect fun j' _ hj' _ ↦ pure hj'.grows)
  · exact pure (grows_refl j)

/-- A semicolon is passed, or its place taken by a line break, on both sides or on none. -/
theorem semicolon_alone : Spec z j (fun _ ↦ Parse.semicolon) fun _ j' ↦ Grows j j' := by
  unfold Parse.semicolon
  refine token ?_
  split
  · refine implicitSemicolon ?_
    split
    · exact alone (takeImplicitSemicolon (pure (grows_refl j)))
    · exact alone (discard_expect fun j' _ hj' _ ↦ pure hj'.grows)
  · exact pure (grows_refl j)

theorem optionalSemicolon {f : Side → Unit → Parse β}
    (h : ∀ j', Sound z j' → Grows j j' → Spec z j' (fun i ↦ f i ()) R) :
    Spec z j (fun i ↦ Parse.optionalSemicolon >>= f i) R :=
  bind optionalSemicolon_alone fun _ j' hs hj' ↦ h j' hs hj'

theorem semicolon {f : Side → Unit → Parse β}
    (h : ∀ j', Sound z j' → Grows j j' → Spec z j' (fun i ↦ f i ()) R) :
    Spec z j (fun i ↦ Parse.semicolon >>= f i) R :=
  bind semicolon_alone fun _ j' hs hj' ↦ h j' hs hj'

/-! ### Scopes -/

/-- A step in a changed scope, which is restored in part. -/
theorem rescoped {Q : (Side → α) → Joint → Prop} {m : Side → Parse α} {f g : Scope → Scope}
    (h : Spec z { j with scope := f j.scope } m Q)
    (hQ : ∀ a j' scope, Q a j' → Q a { j' with scope := scope }) :
    Spec z j (fun i ↦ do
      Parse.inScope f
      let result ← m i
      Parse.inScope g
      return result) Q :=
  inScope (bind h fun a j' _ ha ↦ inScope (pure (hQ a j' _ ha)))

/-- What is read alike with other reserved words is read alike. -/
theorem withReserved {Q : (Side → α) → Joint → Prop} {m : Side → Parse α} {await yield : Bool}
    (h : Spec z { j with scope := { j.scope with allowAwait := await, allowYield := yield } } m Q)
    (hQ : ∀ a j' scope, Q a j' → Q a { j' with scope := scope }) :
    Spec z j (fun i ↦ Parse.withReserved await yield (m i)) Q :=
  scope (rescoped h hQ)

/-- What is read alike where `in` is an operator, or is none, is read alike. -/
theorem withIn {Q : (Side → α) → Joint → Prop} {m : Side → Parse α} {allowed : Bool}
    (h : Spec z { j with scope := { j.scope with allowIn := allowed } } m Q)
    (hQ : ∀ a j' scope, Q a j' → Q a { j' with scope := scope }) :
    Spec z j (fun i ↦ Parse.withIn allowed (m i)) Q :=
  scope (rescoped h hQ)

/-! ### Errors -/

theorem badFrom {start : Side → Nat} (hj : j.dirty = true) :
    Spec z j (fun i ↦ Parse.badFrom (start i)) (ReadsExpr z k) :=
  here (pure (.bad hj))

theorem skipFrom {start : Side → Nat} (hj : j.dirty = true) :
    Spec z j (fun i ↦ Parse.skipFrom (start i)) (ReadsExpr z k) :=
  nextStatement hj fun _ hj' ↦ badFrom hj'

/-- **Names.** -/
theorem identifier (ht : j.token.isName = true) :
    Spec z j (fun _ ↦ Parse.identifier) (ReadsExpr z j) := by
  unfold Parse.identifier
  refine of_sound fun hj ↦ lexeme fun x hx ↦ next fun j' hj' hp ↦ pure ?_
  obtain ⟨name, hname⟩ := hx.spelt.name
  obtain ⟨hexact, hnamed⟩ := hx.ends ht fun _ ↦ rfl
  rw [← hp.last_eq (z := z)] at hexact hnamed
  refine ⟨.leaf hp.grows (.identifier default name) (fun v i ↦ ?_) fun _ ↦ rfl, fun hd ↦
    ⟨fun i n hn ↦ ?_, hexact, fun _ ↦ hnamed, rfl⟩⟩
  · rw [hname]
    rfl
  · have hstart : n = z.offset i j.place := by
      rw [← hx.start i]
      exact (Option.mem_some_iff.1 hn).symm
    rw [hstart]
    exact start_bounds hj hj' hp hj.stop_suffix (grows_refl _) hd i

end Spec

end ColonGap.Script
