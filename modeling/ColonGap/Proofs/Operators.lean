import ColonGap.Proofs.Operands

/-!
# Operators, on both sides

Each level of precedence is dealt with like the source does: from the level below. All operators
that join two operands build one kind of node (`ReadsExpr.binary`).

The one operator behind its operand needs more, as the end of `x++` is recorded two bytes behind
the end of `x`. That is where the operator ends if nothing stands between them, and whether
something does is the same on both sides (`Ended.update`).
-/

namespace ColonGap.Script

open Piece

variable {z : Respacing} {j j' j'' k : Joint} {ps qs rs : List Piece}

/-! ### `++` and `--` behind an operand -/

/-- The first byte of a text tells its first character, if it is ASCII. -/
theorem head?_text_iff (h : ps <:+ z.pieces) {c : UInt8} (hc : c < 0x80) (i : Side) :
    (text i ps).head? = some c ↔ (glyphs i ps).head?.map Glyph.code = some c.toNat := by
  have hmem : ∀ g ∈ glyphs i ps, g ∈ Utf8.glyphs (z.source i) := fun g hg ↦ mem_glyphs_source h hg
  rw [text]
  cases hgs : glyphs i ps with
  | nil => simp
  | cons g gs =>
    have hg := hmem g (by simp [hgs])
    obtain ⟨b, tails, hbytes, -⟩ := Utf8.exists_bytes_of_mem_glyphs hg
    simp only [List.flatMap_cons, hbytes, List.cons_append, List.head?_cons, Option.some.injEq,
      Option.map_some]
    constructor
    · rintro rfl
      by_contra hne
      exact Utf8.notMem_bytes hg hc hne (by simp [hbytes])
    · intro hcode
      have hone := Utf8.bytes_of_code_lt hg (by rw [hcode]; exact hc)
      rw [hbytes, hcode] at hone
      simpa using (List.cons.inj hone).1

/-- A plus or minus sign is in both texts or in neither. -/
theorem sign_iff (h : ps <:+ z.pieces) {c : UInt8} (hc : c = 43 ∨ c = 45) (i : Side) :
    (text i ps).head? = some c ↔ ∃ g qs, ps = same g :: qs ∧ g.code = c.toNat := by
  rw [head?_text_iff h (by rcases hc with rfl | rfl <;> decide)]
  match ps, h with
  | [], _ => simp
  | same g :: qs, _ => simp
  | gap blanks :: qs, h =>
    obtain ⟨g, gs, hgs, hstop⟩ := (z.valid.of_suffix h).exists_stop rfl i
    refine iff_of_false ?_ (by simp)
    rw [hgs, List.head?_cons, Option.map_some, Option.some.injEq]
    intro hcode
    rw [Glyph.isStop, Glyph.isFiller, hcode] at hstop
    rcases hc with rfl | rfl <;> exact absurd hstop (by decide)

/-- Two signs are in both texts or in neither. -/
theorem isUpdate_iff (h : ps <:+ z.pieces) (i : Side) :
    isUpdate ((z.source i).slice (z.offset i ps) (z.offset i ps + 2)) = true ↔
      ∃ g g' qs, ps = same g :: same g' :: qs ∧
        (g.code = 43 ∧ g'.code = 43 ∨ g.code = 45 ∧ g'.code = 45) := by
  have htwo : ∀ c : UInt8, c = 43 ∨ c = 45 → ((text i ps).take 2 = [c, c] ↔
      ∃ g g' qs, ps = same g :: same g' :: qs ∧ g.code = c.toNat ∧ g'.code = c.toNat) := by
    intro c hc
    have hsmall : c.toNat < 0x80 := by rcases hc with rfl | rfl <;> decide
    constructor
    · intro htake
      have htext := List.take_append_drop 2 (text i ps)
      rw [htake] at htext
      obtain ⟨g, qs, rfl, hg⟩ := (sign_iff h hc i).1 (by rw [← htext]; rfl)
      have hqs := (List.suffix_cons _ _).trans h
      rw [text_same, bytes_of_code h (by omega)] at htext
      simp only [List.cons_append, List.nil_append, List.cons.injEq] at htext
      obtain ⟨g', qs', rfl, hg'⟩ := (sign_iff hqs hc i).1 (by rw [← htext.2]; rfl)
      exact ⟨g, g', qs', rfl, hg, hg'⟩
    · rintro ⟨g, g', qs, rfl, hg, hg'⟩
      rw [text_same, text_same, bytes_of_code h (by omega),
        bytes_of_code ((List.suffix_cons _ _).trans h) (by omega), hg, hg']
      simp
  rw [Bytes.slice, Respacing.drop_offset h, Nat.add_sub_cancel_left, isUpdate, Bool.or_eq_true,
    beq_iff_eq, beq_iff_eq, htwo 43 (.inl rfl), htwo 45 (.inr rfl)]
  constructor
  · rintro (⟨g, g', qs, hps, hg⟩ | ⟨g, g', qs, hps, hg⟩)
    · exact ⟨g, g', qs, hps, .inl hg⟩
    · exact ⟨g, g', qs, hps, .inr hg⟩
  · rintro ⟨g, g', qs, hps, hg | hg⟩
    · exact .inl ⟨g, g', qs, hps, hg⟩
    · exact .inr ⟨g, g', qs, hps, hg⟩

/-- Nothing is passed before a sign. -/
theorem eq_of_passes {source : Bytes} {start closed stop : Nat} {c : UInt8}
    (h : Gap.Passes isSeparator source start closed stop) (hget : source[start]? = some c)
    (hc : c = 43 ∨ c = 45) : stop = start := by
  induction h with
  | refl => rfl
  | @separator closed stop n _ hn ih =>
    subst ih
    rw [← List.head?_drop] at hget
    generalize source.drop stop = s at hn hget
    cases hn with
    | @blank b rest hblank =>
      obtain rfl : b = c := by simpa using hget
      rw [Utf8.ofLead_of_lt (by rcases hc with rfl | rfl <;> decide)] at hblank
      rcases hc with rfl | rfl <;> exact absurd hblank (by decide)
    | line | block =>
      obtain rfl : 47 = c := by simpa using hget
      exact absurd hc (by decide)
  | @closing closed stop b _ hclosing hb ih =>
    subst ih
    obtain rfl : b = c := by simpa [hclosing] using hget
    rcases hc with rfl | rfl <;> exact absurd hb (by decide)

/-- **The end of `x++`.** If two signs follow the recorded end of an operand, then they are the
operator, and the operand has been read up to them. -/
theorem Ended.update {stop : Side → Nat} (h : Ended z stop (j.last z)) (hs : Sound z j)
    (hd : j.dirty = false) (ht : j.token = .increment ∨ j.token = .decrement) (hp : Passed j j') :
    ∃ b, (∀ i, isUpdate ((z.source i).slice (stop i) (stop i + 2)) = b) ∧
      (b = true → Ended z (fun i ↦ stop i + 2) (j'.last z)) := by
  obtain ⟨hne, ps, hps, hlast, hstop, hpasses⟩ := h
  by_cases hold : isUpdate ((z.source .old).slice (stop .old) (stop .old + 2)) = true
  · rw [hstop, isUpdate_iff hps] at hold
    obtain ⟨g, g', qs, rfl, hcodes⟩ := hold
    have hsign : g.code.toUInt8 = 43 ∨ g.code.toUInt8 = 45 :=
      hcodes.imp (fun h ↦ by rw [h.1]; rfl) fun h ↦ by rw [h.1]; rfl
    have hget := getElem?_offset hps (by omega) .old
    -- Nothing is passed before the signs, so the last token ends there, and the next one starts.
    have hplace : ∀ {rs : List Piece} {closed : Nat}, rs <:+ same g :: same g' :: qs →
        Gap.Passes isSeparator (z.source .old) (z.offset .old (same g :: same g' :: qs)) closed
          (z.offset .old rs) → rs = same g :: same g' :: qs := fun hrs hpass ↦ by
      by_contra hne
      have hlt := offset_lt_of_suffix hrs hne hps rfl .old
      have heq := eq_of_passes hpass hget hsign
      omega
    have hend : j.last z = same g :: same g' :: qs := by
      rcases hpasses with hpasses | hblocked
      · have hpass := hpasses .old
        rw [hstop] at hpass
        exact hplace hlast hpass
      · obtain ⟨closed, q, hpass, hparen⟩ := hblocked .old
        rw [hstop] at hpass
        rw [eq_of_passes hpass hget hsign, hget, Option.some.injEq] at hparen
        rw [hparen] at hsign
        exact absurd hsign (by decide)
    have hfollows := hs.follows hd
    obtain ⟨a, b, hab⟩ : ∃ a b, j.place = same a :: same b :: j.stop := by
      have htwo : ∃ c, j.token.spelling = some [c, c] := by
        rcases ht with ht | ht
        · exact ⟨43, by rw [ht]; rfl⟩
        · exact ⟨45, by rw [ht]; rfl⟩
      obtain ⟨c, hspelling⟩ := htwo
      obtain ⟨gs, hgs, hcodes⟩ := hs.exists_glyphs hspelling
      obtain ⟨a, gs, rfl, -, hrest⟩ := List.map_eq_cons_iff.1 hcodes
      obtain ⟨b, rfl, -⟩ := List.map_eq_singleton_iff.1 hrest
      exact ⟨a, b, hgs⟩
    have hjoined : Joined z (j.last z) j.place := hfollows.joined (by simp [hab]) hne
    rw [hend] at hjoined
    have hstart := hplace (hend ▸ hfollows.suffix) (hjoined .old)
    have hqs : j'.last z = qs := by
      rw [hab] at hstart
      rw [hp.last_eq]
      exact (List.cons.inj (List.cons.inj hstart).2).2
    have htail := (List.suffix_cons _ _).trans hps
    refine ⟨true, fun i ↦ ?_, fun _ ↦ ?_⟩
    · rw [hstop]
      exact (isUpdate_iff hps i).2 ⟨g, g', qs, rfl, hcodes⟩
    · rw [hqs]
      refine ended_of_offset ((List.suffix_cons _ _).trans htail)
        (ne_of_cons_suffix hps (List.suffix_cons _ _)) fun i ↦ ?_
      rw [hstop, offset_same htail (by omega), offset_same hps (by omega)]
  · refine ⟨false, fun i ↦ ?_, nofun⟩
    rw [hstop, isUpdate_iff hps] at hold
    rw [← Bool.not_eq_true, hstop, isUpdate_iff hps]
    exact hold

/-! ### Nodes -/

namespace ReadsExpr

variable {e left right : Side → Expr}

/-- An operator before its operand. -/
theorem unary (h : ReadsExpr z k e j') (hs : Sound z j) (hp : Passed j k) (hs' : Sound z j')
    (op : Token) : ReadsExpr z j (fun i ↦ .unary ⟨z.offset i j.place, (e i).stop⟩ op (e i)) j' := by
  refine .ending ((h.toReads.after hp.grows).node (fun e ↦ .unary default op e) (fun v i ↦ ?_) fun i ↦ ?_)
    h (fun i ↦ ?_) (fun _ ↦ rfl) rfl fun hd ↦ hs.between hp hs' h.grows hd
  · simp [Expr.view]
  · simp [Tree.entries_expr, Expr.occurrences]
  · simp only [Expr.endsExactly]

/-- An `await` expression is read alike. -/
theorem await (h : ReadsExpr z k e j') (hs : Sound z j) (hp : Passed j j'') (hg : Grows j'' k)
    (hs' : Sound z j') :
    ReadsExpr z j (fun i ↦ .await ⟨z.offset i j.place, (e i).stop⟩ (e i)) j' := by
  refine .ending ((h.toReads.after (hp.grows.trans hg)).node (fun e ↦ .await default e) (fun v i ↦ ?_)
    fun i ↦ ?_) h (fun i ↦ ?_) (fun _ ↦ rfl) rfl fun hd ↦ hs.between hp hs' (hg.trans h.grows) hd
  · simp [Expr.view]
  · simp [Tree.entries_expr, Expr.occurrences]
  · simp only [Expr.endsExactly]

/-- An operator behind its operand. -/
theorem postUpdate (h : ReadsExpr z j e j') (hs : Sound z j') (hp : Passed j' j'')
    (hs' : Sound z j'')
    (ht : j'.token = .increment ∨ j'.token = .decrement) :
    ReadsExpr z j (fun i ↦ .postUpdate ⟨(e i).start, (e i).stop + 2⟩ j'.token (e i)) j'' := by
  refine ⟨(h.toReads.trans hp.grows).node (fun e ↦ .postUpdate default j'.token e) (fun v i ↦ ?_)
    fun i ↦ ?_, fun hd ↦
      ⟨h.between hs' hp.grows hd, ?_, fun h ↦ absurd h Bool.false_ne_true, rfl⟩⟩
  · simp [Expr.view]
  · simp [Tree.entries_expr, Expr.occurrences]
  · have hd' := hp.clean hd
    obtain ⟨b, hb, hended⟩ := (h.clear hd').exact
    simp only [Expr.endsExactly, hb]
    cases b with
    | false => exact ⟨false, fun _ ↦ rfl, fun h ↦ absurd h Bool.false_ne_true⟩
    | true => exact (hended rfl).update hs hd' ht hp

/-- An operator between its operands. -/
theorem binary (hl : ReadsExpr z j left j') (hg : Grows j' k) (hr : ReadsExpr z k right j'')
    (hs : Sound z j'') (op : Token) :
    ReadsExpr z j (fun i ↦ binaryOf op (left i) (right i)) j'' := by
  refine .ending ((hl.toReads.pair (hr.toReads.after hg)).node (fun p ↦ .binary default op p.1 p.2)
    (fun v i ↦ ?_) fun i ↦ ?_) hr (fun i ↦ ?_) (fun _ ↦ rfl) rfl fun hd ↦
    hl.between hs (hg.trans hr.grows) hd
  · simp [binaryOf, Expr.view]
  · simp [binaryOf, Tree.entries_expr, Expr.occurrences]
  · simp only [binaryOf, Expr.endsExactly]

end ReadsExpr

/-! ### Tests -/

theorem isReference_view (v : View) (e : Expr) : isReference (e.view v) = isReference e := by
  cases e <;> rfl

theorem isPowerBase_view (v : View) (e : Expr) : isPowerBase (e.view v) = isPowerBase e := by
  cases e <;> rfl

theorem isConjunction_view (v : View) (e : Expr) : isConjunction (e.view v) = isConjunction e := by
  cases e <;> rfl

/-- A test that views do not affect is answered alike on both sides. -/
theorem Reads.exists_test {e : Side → Expr} (h : Reads z j e j') {p : Expr → Bool}
    (hp : ∀ v e, p (Expr.view v e) = p e) : ∃ b, ∀ i, p (e i) = b :=
  ⟨p (e .old), (h.alike .shape trivial).test hp⟩

namespace Spec

variable {g : Grammar}

/-! ### Levels -/

/-- An expression with `++` or `--` is read alike. -/
theorem updateExpression (hg : g.Even z) :
    Spec z j (fun _ ↦ Script.updateExpression g) (ReadsExpr z j) := by
  unfold Script.updateExpression
  refine of_sound fun hs ↦ lexeme fun x hx ↦ ?_
  simp only [hx.token, hx.start]
  refine choice (fun _ ↦ ?_) fun _ ↦ ?_
  · refine next fun j1 _ hp1 ↦ bind (hg.expr .unary j1) fun e j2 hs2 he ↦ ?_
    obtain ⟨b, hb⟩ := he.toReads.exists_test isReference_view
    simp only [hb]
    exact choice (fun _ ↦ pure (he.unary hs hp1 hs2 _)) fun _ ↦ note (skipFrom rfl)
  · refine bind (callExpression hg) fun e j1 hs1 he ↦ lexeme fun x hx ↦ implicitSemicolon ?_
    simp only [hx.token, hx.start]
    obtain ⟨b, hb⟩ := he.toReads.exists_test isReference_view
    simp only [hb]
    refine choice (fun ht ↦ next fun j2 hs2 hp2 ↦ ?_) fun _ ↦ pure he
    refine choice (fun _ ↦ pure ?_) fun _ ↦ note (skipFrom rfl)
    refine he.postUpdate hs1 hp2 hs2 ?_
    simpa using (Bool.and_eq_true_iff.1 ht).1

/-- A unary expression is read alike. -/
theorem unaryExpression (hg : g.Even z) :
    Spec z j (fun _ ↦ Script.unaryExpression g) (ReadsExpr z j) := by
  unfold Script.unaryExpression
  refine of_sound fun hs ↦ lexeme fun x hx ↦ scope ?_
  simp only [hx.token, hx.start]
  refine choice (fun _ ↦ ?_) fun _ ↦ choice (fun _ ↦ ?_) fun _ ↦ updateExpression hg
  · exact next fun j1 _ hp1 ↦ bind (hg.expr .unary j1) fun e j2 hs2 he ↦ pure (he.unary hs hp1 hs2 _)
  · refine next fun j1 _ hp1 ↦ choice (fun _ ↦ unexpected (badFrom rfl)) fun _ ↦ ?_
    refine noteIf fun dirty hdirty ↦ bind (hg.expr .unary _) fun e j2 hs2 he ↦ pure ?_
    exact he.await hs hp1 (grows_dirty hdirty) hs2

/-- A power is read alike. -/
theorem powerExpression (hg : g.Even z) :
    Spec z j (fun _ ↦ Script.powerExpression g) (ReadsExpr z j) := by
  unfold Script.powerExpression
  refine isAt (bind (unaryExpression hg) fun e j1 _ he ↦ isAt (choice (fun _ ↦ ?_) fun _ ↦ pure he))
  obtain ⟨b, hb⟩ := he.toReads.exists_test isPowerBase_view
  simp only [hb]
  have hloop : ∀ j2, ReadsExpr z j e j2 → Spec z j2 (fun i ↦ Parse.loop (e i) fun left ↦ do
      Parse.next
      let left := binaryOf .power left (← g.expr .power)
      if ← Parse.isAt .power then return .inl left else return .inr left) (ReadsExpr z j) := by
    intro j2 he2
    refine loop (I := ReadsExpr z j) (fun left j3 _ hleft ↦ ?_) he2 fun j' hd ↦ .const hd _
    refine next fun j4 _ hp4 ↦ bind (hg.expr .power j4) fun right j5 hs5 hright ↦ isAt ?_
    have hboth := hleft.binary hp4.grows hright hs5 .power
    exact choice (fun _ ↦ pure_inl hboth) fun _ ↦ pure_inr hboth
  exact choice (fun _ ↦ here (note (hloop _ he.noted))) fun _ ↦ hloop j1 he

/-- A level of operators that associate to the left. -/
theorem leftAssociative {operators : List Token} {operand : Parse Expr}
    (h : ∀ j, Spec z j (fun _ ↦ operand) (ReadsExpr z j)) :
    Spec z j (fun _ ↦ Script.leftAssociative operators operand) (ReadsExpr z j) := by
  unfold Script.leftAssociative
  refine bind (h j) fun first j1 _ hfirst ↦ ?_
  refine loop (I := ReadsExpr z j) (fun left j2 _ hleft ↦ token ?_) hfirst fun j' hd ↦ .const hd _
  refine choice (fun _ ↦ ?_) fun _ ↦ pure_inr hleft
  exact next fun j3 _ hp3 ↦ bind (h j3) fun right j4 hs4 hright ↦
    pure_inl (hleft.binary hp3.grows hright hs4 _)

theorem shift (hg : g.Even z) : Spec z j (fun _ ↦ Script.shift g) (ReadsExpr z j) :=
  leftAssociative fun _ ↦ leftAssociative fun _ ↦ leftAssociative fun _ ↦ powerExpression hg

/-- A comparison is read alike, and so is an `in` where it is an operator. -/
theorem relational (hg : g.Even z) :
    Spec z j (fun _ ↦ Script.relational g) (ReadsExpr z j) := by
  unfold Script.relational
  refine of_sound fun hs ↦ lexeme fun x hx ↦ scope ?_
  simp only [hx.token]
  refine choice (fun _ ↦ ?_) fun _ ↦ ?_
  · refine next fun j1 hs1 hp1 ↦ isAt ?_
    have hname := hx.readsPrivateName hs hp1 hs1
    refine choice (fun _ ↦ ?_) fun _ ↦ pure hname
    exact next fun j2 _ hp2 ↦ bind (shift hg) fun right j3 hs3 hright ↦
      pure (hname.binary hp2.grows hright hs3 _)
  · refine bind (shift hg) fun left j1 _ hleft ↦ token ?_
    refine choice (fun _ ↦ ?_) fun _ ↦ pure hleft
    refine withIn ?_ fun e j' scope he ↦ he.inScope scope
    exact next fun j2 _ hp2 ↦ bind (hg.expr .relational j2) fun right j3 hs3 hright ↦
      pure (hleft.binary ((grows_refl _).trans hp2.grows) hright hs3 _)

theorem logicalAnd (hg : g.Even z) : Spec z j (fun _ ↦ Script.logicalAnd g) (ReadsExpr z j) :=
  leftAssociative fun _ ↦ leftAssociative fun _ ↦ leftAssociative fun _ ↦ leftAssociative fun _ ↦
    leftAssociative fun _ ↦ relational hg

/-- A disjunction is read alike, and so is a chain of `??`. -/
theorem logicalOr (hg : g.Even z) :
    Spec z j (fun _ ↦ Script.logicalOr g) (ReadsExpr z j) := by
  unfold Script.logicalOr
  refine isAt (bind (logicalAnd hg) fun first j1 _ hfirst ↦ isAt ?_)
  obtain ⟨b, hb⟩ := hfirst.toReads.exists_test isConjunction_view
  simp only [hb]
  refine choice (fun _ ↦ ?_) fun _ ↦ ?_
  · refine loop (I := ReadsExpr z j) (fun left j2 _ hleft ↦ token ?_) hfirst fun j' hd ↦ .const hd _
    split
    · exact next fun j3 _ hp3 ↦ bind (logicalAnd hg) fun right j4 hs4 hright ↦
        pure_inl (hleft.binary hp3.grows hright hs4 _)
    · exact here (note (pure_inr hleft.noted))
    · exact pure_inr hleft
  · refine loop (I := ReadsExpr z j) (fun left j2 _ hleft ↦ here (token ?_)) hfirst
      fun j' hd ↦ .const hd _
    split
    · refine next fun j3 _ hp3 ↦ isAt (bind (logicalAnd hg) fun right j4 hs4 hright ↦ ?_)
      obtain ⟨b, hb⟩ := hright.toReads.exists_test isConjunction_view
      simp only [hb]
      refine choice (fun _ ↦ note (pure_inr ?_)) fun _ ↦
        pure_inl (hleft.binary hp3.grows hright hs4 _)
      exact (hleft.toReads.trans (grows_of_dirty rfl)).expr rfl
    · exact note (pure_inr hleft.noted)
    · exact pure_inr hleft

/-- A conditional expression is read alike. -/
theorem conditional (hg : g.Even z) :
    Spec z j (fun _ ↦ Script.conditional g) (ReadsExpr z j) := by
  unfold Script.conditional
  refine bind (logicalOr hg) fun test j1 _ htest ↦ isAt (choice (fun _ ↦ ?_) fun _ ↦ pure htest)
  refine bind (Q := Reads z j1) (withIn ?_ fun e j' scope he ↦ he.inScope scope) ?_
  · refine next fun j2 _ hp2 ↦ (hg.expr .assignment j2).mono fun e j3 _ he ↦ he.toReads.after ?_
    exact (grows_refl _).trans hp2.grows
  · intro consequent j2 _ hconsequent
    refine discard_expect fun j3 _ hp3 _ ↦ bind (hg.expr .assignment j3) fun alternate j4 hs4 ha ↦ ?_
    have hgrows := hconsequent.grows.trans (hp3.grows.trans ha.grows)
    refine pure (.ending ?_ ha (fun i ↦ ?_) (fun _ ↦ rfl) rfl fun hd ↦ htest.between hs4 hgrows hd)
    · refine ((htest.toReads.pair (hconsequent.trans hp3.grows)).pair ha.toReads).node
        (fun p ↦ .conditional default p.1.1 p.1.2 p.2) (fun v i ↦ ?_) fun i ↦ ?_
      · simp [Expr.view]
      · simp [Tree.entries_expr, Expr.occurrences]
    · simp only [Expr.endsExactly]

end Spec

end ColonGap.Script
