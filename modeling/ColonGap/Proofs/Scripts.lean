import ColonGap.Proofs.Statements

/-!
# Scripts, on both sides

The recursive productions go the same way on both sides at any depth, and so does the whole parser:
it accepts both texts of a `Respacing` or neither, and what it reads looks alike (`parse_alike`).
-/

namespace ColonGap.Script

open Piece

variable {z : Respacing} {j : Joint}

/-- No depth is left. -/
theorem Spec.tooDeep {α : Type} [Inhabited α] {Q : (Side → α) → Joint → Prop}
    (hQ : ∀ j', j'.dirty = true → Q (fun _ ↦ default) j') :
    Spec z j (fun _ ↦ (Script.tooDeep : Parse α)) Q :=
  read (g := fun _ s ↦ s) (fun _ _ ↦ rfl) fun _ _ ↦ note (pure (hQ _ rfl))

/-- **The grammar.** At any depth, the productions go the same way on both sides. -/
theorem even_grammar (hz : Tame z) (depth : Nat) : (grammar depth).Even z := by
  induction depth with
  | zero =>
    exact ⟨hz, fun _ _ ↦ .tooDeep fun _ hd ↦ .const hd _, fun _ ↦ .tooDeep fun _ hd ↦ .const hd _⟩
  | succ depth ih =>
    refine ⟨hz, fun goal j ↦ ?_, fun j ↦ Spec.statement ih⟩
    cases goal with
    | assignment => exact Spec.assignment ih
    | unary => exact Spec.unaryExpression ih
    | power => exact Spec.powerExpression ih
    | relational => exact Spec.relational ih
    | leftHandSide => exact Spec.leftHandSide ih
    | call => exact Spec.callExpression ih
    | object => exact Spec.objectLiteral ih

/-! ### The start -/

/-- Without their blanks, both texts have the same characters. -/
theorem filter_scalars {ps : List Piece} (h : Valid ps) (i : Side) :
    (scalars i ps).filter (fun c ↦ !isBlank c.code)
      = (scalars .old ps).filter fun c ↦ !isBlank c.code := by
  induction ps with
  | nil => rfl
  | cons p ps ih =>
    cases p with
    | same g => simp only [scalars_same, List.filter_cons, ih h.2]
    | gap blanks =>
      have hblank : ∀ i, ((blanks i).map Glyph.scalar).filter (fun c ↦ !isBlank c.code) = [] := by
        intro i
        rw [List.filter_eq_nil_iff]
        intro c hc
        obtain ⟨g, hg, rfl⟩ := List.mem_map.1 hc
        have hfill := Glyph.isBlank_of_isFiller (h.1 i g hg)
        change ¬ (!isBlank g.code) = true
        simp [hfill]
      simp only [scalars_gap, List.filter_append, hblank, ih h.2.2]

/-- Blanks have no weight. -/
theorem weight_source (i : Side) : weight (z.source i) = weight (z.source .old) := by
  have hscalars : ∀ i, Utf8.scalars (z.source i) = scalars i z.pieces := fun i ↦ by
    rw [← Utf8.map_scalar_glyphs, Respacing.source, z.cut]
    rfl
  rw [weight, weight, hscalars, hscalars, filter_scalars z.valid]

/-- Readers at the start of both texts keep pace. -/
theorem paces_ofSource : ∃ dirty, Paces z dirty z.pieces fun i ↦ Reader.ofSource (z.source i) := by
  have hstands : ∀ i, Stands z i z.pieces ⟨0, Utf8.scalars (z.source i), z.source i, none⟩ := fun i ↦ by
    refine ⟨?_, rfl, (Nat.sub_self _).symm⟩
    rw [← Utf8.map_scalar_glyphs, Respacing.source, z.cut]
    rfl
  refine ⟨headMalformed z.pieces, List.suffix_rfl, fun i ↦ ((hstands i).check z.valid).1, fun i ↦ ?_⟩
  exact ((hstands i).check z.valid).2

/-- The first token is read. -/
theorem exists_first {s : Side → ParserState} (hs : ∀ i, s i = initialState (z.source i)) :
    ∃ j, j.trace = [] ∧ Twin z j fun i ↦ (Parse.next.run (s i)).2 := by
  obtain rfl : s = fun i ↦ initialState (z.source i) := funext hs
  obtain ⟨dirty, hpaces⟩ := paces_ofSource (z := z)
  have hlexer : Paces z dirty z.pieces fun i ↦ (Lexer.ofSource (z.source i)).reader := hpaces
  obtain ⟨dirty', t, qs, rs, ts, insert', implicit', hscan, hqs, -⟩ :=
    exists_scan hlexer (fun _ ↦ (rfl : _ = false)) ⟨false, false⟩
  refine ⟨⟨dirty', [], t, qs, rs, ts, implicit', {}⟩, rfl, ⟨hscan.lexes, hscan.paces,
    ⟨insert', hscan.insert⟩, hscan.implicit, hscan.suffix, hscan.joined, fun _ ↦ ?_⟩, fun _ ↦ rfl,
    fun _ ↦ rfl, ⟨[], fun _ ↦ rfl⟩, ⟨0, fun _ ↦ rfl⟩, .inl fun _ ↦ rfl,
    ⟨16 * (weight (z.source .old) + 2), fun i ↦ ?_⟩⟩
  · exact ⟨trivial, hqs, fun _ hne ↦ absurd rfl hne⟩
  · exact congrArg (fun n ↦ 16 * (n + 2)) (weight_source i)

/-! ### Whole scripts -/

/-- What two scripts have in common, and the tokens they were read from. -/
structure ReadsScript (z : Respacing) (p : Side → Program) (tr : Trace) : Prop where
  chain : Trace.Chain z tr
  alike : Trace.Rigid tr → Alike z .bare p
  entries : Paired z tr fun i ↦ Tree.entries (p i)

/-- The statements of a script. -/
theorem Spec.statementsToEnd {g : Grammar} (hg : g.Even z) :
    Spec z j (fun _ ↦ Parse.loop ([] : List Stmt) fun items ↦ do
      match ← Parse.token with
      | .endOfInput => return .inr items.reverse
      | _ =>
        Parse.inScope fun s ↦ { s with allowLet := true }
        return .inl ((← g.stmt) :: items)) (Reads z j) := by
  refine loop (I := fun items ↦ Reads z j fun i ↦ (items i).reverse) ?_ (.nil (grows_refl j))
    fun j' hd ↦ .const hd _
  intro items j1 _ hitems
  refine token ?_
  split
  · exact pure_inr hitems
  · exact inScope (bind (hg.stmt _) fun s j2 _ hs ↦
      pure_inl (hitems.snoc (hs.after (grows_refl _))))

/-- The run of the parser on a source, with productions down to a depth. -/
def runProgram (depth : Nat) (source : Bytes) : Program × ParserState :=
  (program (grammar depth)).run (initialState source)

theorem parse_eq (source : Bytes) :
    parse source = match (runProgram (8 * (weight source + 2)) source).2.lexer.reader.error with
      | some e => .error e
      | none => .ok (runProgram (8 * (weight source + 2)) source).1 :=
  rfl

/-- **Both texts are accepted or neither is**, and the scripts look alike. -/
theorem parse_alike (hz : Tame z) :
    (∃ e : Side → SyntaxError, ∀ i, parse (z.source i) = .error (e i)) ∨
      ∃ p tr, (∀ i, parse (z.source i) = .ok (p i)) ∧ ReadsScript z p tr := by
  obtain ⟨j, -, htwin⟩ := exists_first fun i ↦ (rfl : initialState (z.source i) = _)
  have hparse := fun i ↦ parse_eq (z.source i)
  simp only [weight_source] at hparse
  obtain ⟨j', htwin', hreads⟩ :=
    Spec.statementsToEnd (even_grammar hz (8 * (weight (z.source .old) + 2))) _ htwin
  have herror : ∀ i, (runProgram (8 * (weight (z.source .old) + 2)) (z.source i)).2.lexer.reader.error.isSome
      = j'.dirty := htwin'.holds.paces.error
  cases hd : j'.dirty with
  | true =>
    simp only [hd, Option.isSome_iff_exists] at herror
    choose e he using herror
    exact .inl ⟨e, fun i ↦ by rw [hparse, he]⟩
  | false =>
    simp only [hd, Option.isSome_eq_false_iff, Option.isNone_iff_eq_none] at herror
    refine .inr ⟨fun i ↦ (runProgram (8 * (weight (z.source .old) + 2)) (z.source i)).1, j'.trace,
      fun i ↦ by rw [hparse, herror], (htwin'.sound.follows hd).chain, fun hrigid ↦ ?_, hreads.entries hd⟩
    exact hreads.alike .bare ⟨hd, hrigid⟩

end ColonGap.Script
