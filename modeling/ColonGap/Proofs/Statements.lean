import ColonGap.Proofs.Assignments
import ColonGap.Script.Parser

/-!
# Statements, on both sides

Statements have no extent of their own, so all there is to say about them is `Reads`: they look
alike, and the entries in them are paired.
-/

namespace ColonGap.Script

open Piece

variable {z : Respacing} {j j' j'' k : Joint}

/-- After an error, the shape is all that matters. -/
theorem Reads.of_shape {α : Type} [Tree α] {a : Side → α} (h : Alike z .shape a)
    (hd : j'.dirty = true) : Reads z j a j' where
  grows := grows_of_dirty hd
  alike μ hμ := by
    cases μ with
    | shape => exact h
    | commas => exact absurd (hd.symm.trans hμ) (by simp)
    | bare => exact absurd (hd.symm.trans hμ.1) (by simp)
  entries hclean := absurd hclean (by simp [hd])

namespace Spec

variable {g : Grammar}

theorem skipStatement (hd : j.dirty = true) :
    Spec z j (fun _ ↦ Script.skipStatement) (Reads z k) :=
  nextStatement hd fun _ hd' ↦ pure (.const hd' _)

theorem nestedStatement (hg : g.Even z) :
    Spec z j (fun _ ↦ Script.nestedStatement g) (Reads z j) :=
  inScope ((hg.stmt _).mono fun _ _ _ h ↦ h.after (grows_refl j))

/-- A block is read alike where a statement may stand. -/
theorem blockStatement (hg : g.Even z) :
    Spec z j (fun _ ↦ Script.blockStatement g) (Reads z j) := by
  refine bind (block hg) fun r j1 _ hr ↦ pure (hr.reads.node (fun body ↦ .block body) (fun v i ↦ ?_)
    fun i ↦ ?_)
  · simp [Stmt.view]
  · simp [Tree.entries, Stmt.occurrences]

theorem blockOrNested (hg : g.Even z) :
    Spec z j (fun _ ↦ Script.blockOrNested g) (Reads z j) :=
  isAt (choice (fun _ ↦ blockStatement hg) fun _ ↦ nestedStatement hg)

theorem headExpression (hg : g.Even z) :
    Spec z j (fun _ ↦ Script.headExpression g) (Reads z j) :=
  discard_expect fun _ _ hp1 _ ↦ bind (expression hg) fun _ _ _ he ↦
    discard_expect fun _ _ hp3 _ ↦ pure ((he.toReads.after hp1.grows).trans hp3.grows)

/-! ### Loops -/

/-- The body of a loop is read alike. -/
theorem loopBody (hg : g.Even z) : Spec z j (fun _ ↦ Script.loopBody g) (Reads z j) := by
  unfold Script.loopBody
  refine scope (inScope (bind (nestedStatement hg) fun s j1 _ hs ↦ inScope (pure ?_)))
  exact (hs.after (grows_refl j)).inScope _

/-- A `do` loop is read alike. -/
theorem doWhileStatement (hg : g.Even z) :
    Spec z j (fun _ ↦ Script.doWhileStatement g) (Reads z j) := by
  unfold Script.doWhileStatement
  refine scope (inScope (discard_expect fun j1 _ hp1 _ ↦ ?_))
  refine bind (blockOrNested hg) fun body j2 _ hbody ↦ discard_expect fun j3 _ hp3 _ ↦ ?_
  refine bind (headExpression hg) fun test j4 _ htest ↦ isAt ?_
  dsimp only
  refine nextIf fun j5 _ hg5 ↦ inScope (pure ?_)
  have hgrows : Grows j j1 := (grows_refl j).trans hp1.grows
  refine (((hbody.after hgrows).trans hp3.grows).pair (htest.trans hg5)).inScope _ |>.node
    (fun p ↦ .doWhile p.1 p.2) (fun v i ↦ ?_) fun i ↦ ?_
  · simp [Stmt.view]
  · simp [Tree.entries, Stmt.occurrences]

/-- A `while` loop is read alike. -/
theorem whileStatement (hg : g.Even z) :
    Spec z j (fun _ ↦ Script.whileStatement g) (Reads z j) := by
  unfold Script.whileStatement
  refine discard_expect fun j1 _ hp1 _ ↦ bind (headExpression hg) fun test j2 _ htest ↦ ?_
  refine bind (loopBody hg) fun body j3 _ hbody ↦ pure ?_
  refine ((htest.after hp1.grows).pair hbody).node (fun p ↦ .whileLoop p.1 p.2) (fun v i ↦ ?_) fun i ↦ ?_
  · simp [Stmt.view]
  · simp [Tree.entries, Stmt.occurrences]

/-- `in` and `of` are found on both sides or on neither. -/
theorem inOrOf? : Spec z j (fun _ ↦ Script.inOrOf?) fun r j' ↦ (∃ b, r = fun _ ↦ b) ∧ Grows j j' := by
  unfold Script.inOrOf?
  refine lexeme fun x hx ↦ ?_
  obtain ⟨isOf, hof⟩ := hx.exists_word (by decide : "of" ∈ keyWords)
  simp only [hx.token, hof]
  refine choice (fun _ ↦ ?_) fun _ ↦ choice (fun _ ↦ ?_) fun _ ↦ ?_
  · exact next fun j1 _ hp1 ↦ pure ⟨⟨_, rfl⟩, hp1.grows⟩
  · exact next fun j1 _ hp1 ↦ pure ⟨⟨_, rfl⟩, hp1.grows⟩
  · exact pure ⟨⟨_, rfl⟩, grows_refl j⟩

end Spec

/-- Both sides have read the head of a `for`. -/
inductive ReadsHead (z : Respacing) (j : Joint) : (Side → LoopKind) → Joint → Prop
  | inOf {j' : Joint} {isOf : Bool} {target : Side → LoopTarget} (h : Reads z j target j') :
      ReadsHead z j (fun i ↦ .inOf isOf (target i)) j'
  | counted {j' : Joint} {initializer : Side → LoopInitializer} (h : Reads z j initializer j') :
      ReadsHead z j (fun i ↦ .counted (initializer i)) j'
  | broken {j' : Joint} (hd : j'.dirty = true) : ReadsHead z j (fun _ ↦ .broken) j'

/-- The head of a loop that was read from a state on was read from those before it. -/
theorem ReadsHead.after {kinds : Side → LoopKind} (h : ReadsHead z k kinds j') (hg : Grows j k) :
    ReadsHead z j kinds j' := by
  cases h with
  | inOf h => exact .inOf (h.after hg)
  | counted h => exact .counted (h.after hg)
  | broken hd => exact .broken hd

namespace Reads

variable {target : Side → Expr} {b : Side → Binding}

/-- The only one of a list. -/
theorem ofSingleton {α : Type} [Tree α] {a : Side → α} (h : Reads z j (fun i ↦ [a i]) j') :
    Reads z j a j' where
  grows := h.grows
  alike μ hμ := (alike_cons.1 (h.alike μ hμ)).1
  entries hd := (h.entries hd).of_eq fun i ↦ by simp

/-- The target of a binding without an initial value. -/
theorem ofBinding (h : Reads z j (fun i ↦ Binding.mk (target i) Option.none) j') :
    Reads z j target j' where
  grows := h.grows
  alike μ hμ := (alike_binding.1 (h.alike μ hμ)).1
  entries hd := (h.entries hd).of_eq fun i ↦ by simp [entries_binding]

/-- A binding that was read is the target of a loop. -/
theorem loopVar (h : Reads z j b j') : Reads z j (fun i ↦ LoopTarget.var (b i)) j' := by
  refine h.node (fun b ↦ .var b) (fun v i ↦ ?_) fun i ↦ ?_
  · simp [LoopTarget.view]
  · simp [Tree.entries, LoopTarget.occurrences]

/-- A target that was read is the declared target of a loop. -/
theorem loopDeclaration (h : Reads z j target j') (kind : DeclarationKind) :
    Reads z j (fun i ↦ LoopTarget.declaration kind (target i)) j' := by
  refine h.node (fun b ↦ .declaration kind b) (fun v i ↦ ?_) fun i ↦ ?_
  · simp [LoopTarget.view]
  · simp [Tree.entries, LoopTarget.occurrences]

/-- An expression that was read is the target of a loop. -/
theorem loopExpression (h : Reads z j target j') :
    Reads z j (fun i ↦ LoopTarget.expression (target i)) j' := by
  refine h.node (fun b ↦ .expression b) (fun v i ↦ ?_) fun i ↦ ?_
  · simp [LoopTarget.view]
  · simp [Tree.entries, LoopTarget.occurrences]

end Reads

namespace Spec

variable {g : Grammar}

/-- The head of a loop with a declaration is read alike, and is of one kind on both sides. -/
theorem declaringHead (hg : g.Even z) {kind : DeclarationKind} :
    Spec z j (fun _ ↦ Script.declaringHead g kind) (ReadsHead z j) := by
  unfold Script.declaringHead
  refine next fun j1 _ hp1 ↦ bind (variableDeclarations hg) fun bs j2 _ hbs ↦ ?_
  have hlength : ∀ i, (bs i).length = (bs .old).length := fun i ↦ by
    simpa using congrArg List.length (hbs.alike .shape trivial i)
  have hcounted : ∀ j3, Grows j2 j3 → Spec z j3 (fun i ↦ do
      Script.requireInitializers (bs i)
      return .counted (.declaration kind (bs i))) (ReadsHead z j) := by
    intro j3 hg3
    refine bind (requireInitializers (hbs.alike .shape trivial)) fun _ j4 _ hg4 ↦ pure (.counted ?_)
    refine ((hbs.after hp1.grows).trans (hg3.trans hg4)).node (fun bs ↦ .declaration kind bs)
      (fun v i ↦ ?_) fun i ↦ ?_
    · simp [LoopInitializer.view]
    · simp [Tree.entries, LoopInitializer.occurrences]
  simp only [hlength]
  refine choice (fun hone ↦ bind inOrOf? ?_) fun _ ↦ ?_
  · rintro _ j3 - ⟨⟨isOf?, rfl⟩, hg3⟩
    cases isOf? with
    | none => exact hcounted j3 hg3
    | some isOf =>
      -- There is just one binding.
      obtain rfl | ⟨b, rest, rfl, -, hrest⟩ := (hbs.alike .shape trivial).list
      · exact absurd hone (by simp)
      obtain rfl | ⟨b', rest', rfl, -⟩ := hrest.list
      swap
      · exact absurd hone (by simp)
      obtain ⟨target, initializer, rfl⟩ := exists_binding b
      have hb := ((hbs.ofSingleton.after hp1.grows).trans hg3)
      obtain ⟨htarget, hinitializer⟩ := alike_binding.1 (hb.alike .shape trivial)
      obtain rfl | ⟨e, rfl, -⟩ := hinitializer.option
      · cases kind with
        | var => exact pure (.inOf hb.loopVar)
        | letKind | constKind => exact pure (.inOf (hb.ofBinding.loopDeclaration _))
      · refine note ?_
        cases kind with
        | var => exact pure (.inOf (hb.trans (grows_of_dirty rfl)).loopVar)
        | letKind | constKind =>
          exact pure (.inOf ((Reads.of_shape htarget rfl).loopDeclaration _))
  · simp only [pure_bind]
    exact hcounted j2 (grows_refl _)

/-- The head of a loop without a declaration is read alike, and is of one kind on both sides. -/
theorem expressionHead (hg : g.Even z) {start : Side → Nat} :
    Spec z j (fun i ↦ Script.expressionHead g (start i)) (ReadsHead z j) := by
  unfold Script.expressionHead
  refine bind (expression hg) fun e j1 _ he ↦ bind inOrOf? ?_
  rintro _ j2 - ⟨⟨isOf?, rfl⟩, hg2⟩
  have hread := he.toReads.trans hg2
  have hshape := hread.alike .shape trivial
  cases isOf? with
  | none =>
    refine pure (.counted (hread.node (fun e ↦ .expression e) (fun v i ↦ ?_) fun i ↦ ?_))
    · simp [LoopInitializer.view]
    · simp [Tree.entries, LoopInitializer.occurrences]
  | some isOf =>
    refine of_eq (n := fun i ↦ if (e i).isCollection then
        (do return .inOf isOf (.expression (← Script.assignTarget false (e i))))
      else if isReference (e i) then return .inOf isOf (.expression (e i))
      else do
        Parse.note (start i) .badLoopTarget
        return .broken) (fun i ↦ ?_) ?_
    · cases e i <;> rfl
    simp only [hshape.test isCollection_view, hshape.test isReference_view]
    refine choice (fun _ ↦ ?_) fun _ ↦ choice (fun _ ↦ ?_) fun _ ↦ ?_
    · refine bind (rereads_assignTarget _ false e j2 (Nat.lt_succ_self _) hshape fun hd ↦
        hread.alike .commas hd) fun target j3 _ htarget ↦ pure (.inOf ?_)
      exact (htarget.reads hread).loopExpression
    · exact pure (.inOf hread.loopExpression)
    · exact note (pure (.broken rfl))

/-- Whether the head of a loop declares something is seen alike. -/
theorem headDeclaration? :
    Spec z j (fun _ ↦ Script.headDeclaration?) fun r j' ↦ (∃ b, r = fun _ ↦ b) ∧ Grows j j' := by
  unfold Script.headDeclaration?
  refine token ?_
  split
  · exact pure ⟨⟨_, rfl⟩, grows_refl j⟩
  · exact pure ⟨⟨_, rfl⟩, grows_refl j⟩
  · refine peek fun t dirty hdirty ↦ ?_
    split <;> exact pure ⟨⟨_, rfl⟩, grows_dirty hdirty⟩
  · exact pure ⟨⟨_, rfl⟩, grows_refl j⟩

/-- Behind the head of a loop, `in` is what it was before. -/
theorem closeHead {head : Side → LoopKind} (hhead : ReadsHead z j head j') (allowIn : Bool) :
    Spec z j' (fun i ↦ do
      match head i with
      | .broken => return .broken
      | head =>
        Parse.inScope fun s ↦ { s with allowIn := allowIn }
        return head) (ReadsHead z j) := by
  cases hhead with
  | broken hd => exact pure (.broken hd)
  | inOf h => exact inScope (pure (.inOf (h.inScope _)))
  | counted h => exact inScope (pure (.counted (h.inScope _)))

/-- The head of a `for` loop is read alike. -/
theorem forHead (hg : g.Even z) {start : Side → Nat} :
    Spec z j (fun i ↦ Script.forHead g (start i)) (ReadsHead z j) := by
  unfold Script.forHead
  refine isAt (choice (fun _ ↦ pure (.counted ?_)) fun _ ↦ scope (inScope ?_))
  · exact .leaf (grows_refl j) .absent (fun _ _ ↦ rfl) fun _ ↦ rfl
  refine bind headDeclaration? ?_
  rintro _ j1 - ⟨⟨kind?, rfl⟩, hg1⟩
  have hgrows : Grows j j1 := (grows_refl j).trans hg1
  cases kind? with
  | some kind => exact bind (declaringHead hg) fun head j2 _ h ↦ closeHead (h.after hgrows) _
  | none => exact bind (expressionHead hg) fun head j2 _ h ↦ closeHead (h.after hgrows) _

theorem expressionUnless (hg : g.Even z) {t : Token} :
    Spec z j (fun _ ↦ Script.expressionUnless g t) (Reads z j) :=
  isAt (choice (fun _ ↦ pure (.none (grows_refl j))) fun _ ↦
    bind (expression hg) fun _ _ _ he ↦ pure he.toReads.some)

/-- A `for` loop is read alike. -/
theorem forStatement (hg : g.Even z) :
    Spec z j (fun _ ↦ Script.forStatement g) (Reads z j) := by
  unfold Script.forStatement
  refine expect fun j1 _ hp1 _ ↦ discard_expect fun j2 _ hp2 _ ↦ bind (forHead hg) ?_
  intro head j3 _ hhead
  have hgrows := hp1.grows.trans hp2.grows
  cases hhead with
  | broken hd => exact skipStatement hd
  | @inOf _ isOf target htarget =>
    have htarget := htarget.after hgrows
    cases isOf with
    | false =>
      refine bind (expression hg) fun source j4 _ hsource ↦ discard_expect fun j5 _ hp5 _ ↦ ?_
      refine bind (loopBody hg) fun body j6 _ hbody ↦ pure ?_
      refine ((htarget.pair (hsource.toReads.trans hp5.grows)).pair hbody).node
        (fun p ↦ .forIn p.1.1 p.1.2 p.2) (fun v i ↦ ?_) fun i ↦ ?_
      · simp [Stmt.view]
      · simp [Tree.entries, Stmt.occurrences]
    | true =>
      refine bind (hg.expr .assignment j3) fun source j4 _ hsource ↦ discard_expect fun j5 _ hp5 _ ↦ ?_
      refine bind (loopBody hg) fun body j6 _ hbody ↦ pure ?_
      refine ((htarget.pair (hsource.toReads.trans hp5.grows)).pair hbody).node
        (fun p ↦ .forOf p.1.1 p.1.2 p.2) (fun v i ↦ ?_) fun i ↦ ?_
      · simp [Stmt.view]
      · simp [Tree.entries, Stmt.occurrences]
  | @counted _ initializer hinitializer =>
    refine discard_expect fun j4 _ hp4 _ ↦ bind (expressionUnless hg) fun test j5 _ htest ↦ ?_
    refine discard_expect fun j6 _ hp6 _ ↦ bind (expressionUnless hg) fun update j7 _ hupdate ↦ ?_
    refine discard_expect fun j8 _ hp8 _ ↦ bind (loopBody hg) fun body j9 _ hbody ↦ pure ?_
    refine (((((hinitializer.after hgrows).trans hp4.grows).pair (htest.trans hp6.grows)).pair
      (hupdate.trans hp8.grows)).pair hbody).node (fun p ↦ .loop p.1.1.1 p.1.1.2 p.1.2 p.2)
      (fun v i ↦ ?_) fun i ↦ ?_
    · simp [Stmt.view]
    · simp [Tree.entries, Stmt.occurrences]

/-! ### Jumps -/

/-- A `break` or `continue` is read alike, with its label. -/
theorem jumpStatement {isBreak : Bool} :
    Spec z j (fun _ ↦ Script.jumpStatement isBreak) (Reads z j) := by
  unfold Script.jumpStatement
  refine expect fun j1 _ hp1 _ ↦ implicitSemicolon (isAt ?_)
  have hjump : ∀ (label : Option Bytes) j2, Grows j j2 →
      Reads z j (fun _ ↦ (if isBreak then Stmt.breaks else Stmt.continues) label) j2 := by
    intro label j2 hg2
    refine .leaf hg2 ((if isBreak then Stmt.breaks else Stmt.continues) label) (fun v i ↦ ?_) fun i ↦ ?_
    · cases isBreak <;> rfl
    · cases isBreak <;> rfl
  dsimp only
  refine nextIf fun j2 _ hg2 ↦ scope (isAt ?_)
  have hgrows := hp1.grows.trans hg2
  refine choice (fun _ ↦ takeImplicitSemicolon ?_) fun _ ↦ bindable (isAt ?_)
  · refine choice (fun _ ↦ pure (hjump _ _ (hgrows.trans (grows_refl _)))) fun _ ↦ ?_
    exact note (skipStatement rfl)
  · refine choice (fun _ ↦ lexeme fun x hx ↦ next fun j3 _ hp3 ↦ ?_) fun _ ↦ ?_
    · obtain ⟨name, hname⟩ := hx.spelt.name
      have hgrows3 := hgrows.trans ((grows_bound j2).trans hp3.grows)
      simp only [hname]
      refine read (g := fun _ s ↦ s) (fun _ _ ↦ rfl) fun s hs ↦ ?_
      obtain ⟨outer, houter⟩ := hs.level.outer
      simp only [houter]
      refine choice (fun _ ↦ note (pure (.const rfl _))) fun _ ↦ choice (fun _ ↦ ?_) fun _ ↦ ?_
      · exact note (skipStatement rfl)
      · exact semicolon fun j4 _ hg4 ↦ pure (hjump _ _ (hgrows3.trans hg4))
    · exact discard_expect fun j3 _ _ _ ↦ note (skipStatement rfl)

/-- A `return` is read alike. -/
theorem returnStatement (hg : g.Even z) :
    Spec z j (fun _ ↦ Script.returnStatement g) (Reads z j) := by
  unfold Script.returnStatement
  refine expect fun j1 _ hp1 _ ↦ scope (choice (fun _ ↦ note (skipStatement rfl)) fun _ ↦ ?_)
  refine token (implicitSemicolon (choice (fun _ ↦ ?_) fun _ ↦ ?_))
  · refine bind (expression hg) fun e j2 _ he ↦ semicolon fun j3 _ hg3 ↦ pure ?_
    refine ((he.toReads.after hp1.grows).trans hg3).node (fun e ↦ .returns (some e)) (fun v i ↦ ?_) fun i ↦ ?_
    · simp [Stmt.view]
    · simp [Tree.entries, Stmt.occurrences]
  · refine semicolon fun j2 _ hg2 ↦ pure (.leaf (hp1.grows.trans hg2) (.returns none) (fun v i ↦ ?_)
      fun i ↦ ?_)
    · simp [Stmt.view]
    · simp [Tree.entries, Stmt.occurrences]

/-- A `throw` is read alike. -/
theorem throwStatement (hg : g.Even z) :
    Spec z j (fun _ ↦ Script.throwStatement g) (Reads z j) := by
  unfold Script.throwStatement
  refine expect fun j1 _ hp1 _ ↦ implicitSemicolon (choice (fun _ ↦ ?_) fun _ ↦ ?_)
  · exact read (g := fun _ s ↦ s) (fun _ _ ↦ rfl) fun s _ ↦ note (skipStatement rfl)
  · refine bind (expression hg) fun e j2 _ he ↦ semicolon fun j3 _ hg3 ↦ pure ?_
    refine ((he.toReads.after hp1.grows).trans hg3).node (fun e ↦ .throws e) (fun v i ↦ ?_) fun i ↦ ?_
    · simp [Stmt.view]
    · simp [Tree.entries, Stmt.occurrences]

/-! ### The other statements -/

/-- An `if` is read alike. -/
theorem ifStatement (hg : g.Even z) : Spec z j (fun _ ↦ Script.ifStatement g) (Reads z j) := by
  unfold Script.ifStatement
  refine discard_expect fun j1 _ hp1 _ ↦ bind (headExpression hg) fun test j2 _ htest ↦ ?_
  refine bind (blockOrNested hg) fun consequent j3 _ hconsequent ↦ isAt ?_
  have hboth := (htest.after hp1.grows).pair hconsequent
  refine choice (fun _ ↦ ?_) fun _ ↦ pure ?_
  · refine next fun j4 _ hp4 ↦ bind (nestedStatement hg) fun alternate j5 _ halternate ↦ pure ?_
    refine ((hboth.trans hp4.grows).pair halternate).node (fun p ↦ .branch p.1.1 p.1.2 (some p.2))
      (fun v i ↦ ?_) fun i ↦ ?_
    · simp [Stmt.view]
    · simp [Tree.entries, Stmt.occurrences]
  · refine hboth.node (fun p ↦ .branch p.1 p.2 none) (fun v i ↦ ?_) fun i ↦ ?_
    · simp [Stmt.view]
    · simp [Tree.entries, Stmt.occurrences]

/-- The body of a clause. -/
theorem clauseBody (hg : g.Even z) : Spec z j (fun _ ↦ Parse.loop ([] : List Stmt) fun items ↦ do
    match ← Parse.token with
    | .endOfInput | .rightBrace | .caseWord | .defaultWord => return .inr items.reverse
    | _ =>
      Parse.inScope fun s ↦ { s with allowLet := true }
      return .inl ((← g.stmt) :: items)) (Reads z j) := by
  refine loop (I := fun items ↦ Reads z j fun i ↦ (items i).reverse) ?_ (.nil (grows_refl j))
    fun j' hd ↦ .const hd _
  intro items j1 _ hitems
  refine token ?_
  split
  · exact pure_inr hitems
  · exact pure_inr hitems
  · exact pure_inr hitems
  · exact pure_inr hitems
  · exact inScope (bind (hg.stmt _) fun s j2 _ hs ↦
      pure_inl (hitems.snoc (hs.after (grows_refl _))))

/-- A clause of a switch is read alike. -/
theorem clause (hg : g.Even z) : Spec z j (fun _ ↦ Script.clause g) (Reads z j) := by
  unfold Script.clause
  refine isAt ?_
  have hrest : ∀ (test : Side → Option Expr) j1, Reads z j test j1 → Spec z j1 (fun i ↦ do
      discard (Parse.expect .colon)
      let body ← Parse.loop ([] : List Stmt) fun items ↦ do
        match ← Parse.token with
        | .endOfInput | .rightBrace | .caseWord | .defaultWord => return .inr items.reverse
        | _ =>
          Parse.inScope fun s ↦ { s with allowLet := true }
          return .inl ((← g.stmt) :: items)
      return Clause.mk (test i) body) (Reads z j) := by
    intro test j1 htest
    refine discard_expect fun j2 _ hp2 _ ↦ bind (clauseBody hg) fun body j3 _ hbody ↦ pure ?_
    refine ((htest.trans hp2.grows).pair hbody).node (fun p ↦ .mk p.1 p.2) (fun v i ↦ ?_) fun i ↦ ?_
    · simp [Clause.view]
    · simp [Tree.entries, Clause.occurrences]
  dsimp only
  refine choice (fun _ ↦ ?_) fun _ ↦ ?_
  · exact next fun j1 _ hp1 ↦ hrest (fun _ ↦ none) j1 (.none hp1.grows)
  · refine discard_expect fun j1 _ hp1 _ ↦ bind (expression hg) fun e j2 _ he ↦ ?_
    exact hrest (fun i ↦ some (e i)) j2 (he.toReads.after hp1.grows).some

end Spec

/-- Clauses on both sides have tests and bodies on both sides. -/
theorem exists_clause (c : Side → Clause) :
    ∃ (test : Side → Option Expr) (body : Side → List Stmt), c = fun i ↦ .mk (test i) (body i) := by
  have hc : ∀ i, ∃ test body, c i = .mk test body := fun i ↦ by
    cases c i
    exact ⟨_, _, rfl⟩
  choose test body hc using hc
  exact ⟨test, body, funext hc⟩

theorem alike_clause {test : Side → Option Expr} {body : Side → List Stmt} {μ : Mode} :
    Alike z μ (fun i ↦ Clause.mk (test i) (body i)) ↔ Alike z μ test ∧ Alike z μ body := by
  simp only [Alike, Tree.view_clause, Clause.view, Clause.mk.injEq, forall_and, view?_eq, viewStmts_eq]
  rfl

/-- A function that has been read as an expression. -/
theorem Reads.ofFunction {f : Side → Function} (h : Reads z j (fun i ↦ Expr.function (f i)) j') :
    Reads z j f j' where
  grows := h.grows
  alike μ hμ i := by
    have hi := h.alike μ hμ i
    simp only [Tree.view_expr, Expr.view, Expr.function.injEq] at hi
    exact hi
  entries hd := (h.entries hd).of_eq fun i ↦ by
    simp only [Tree.entries, Expr.occurrences]

/-- What looks like an identifier is one, of the same name on both sides. -/
theorem Alike.identifier {e : Side → Expr} {μ : Mode} (h : Alike z μ e)
    (hold : (e .old).isIdentifier = true) :
    ∃ (sp : Side → Span) (name : Bytes), e = fun i ↦ .identifier (sp i) name := by
  cases heq : e .old with
  | identifier sp name =>
    have hi : ∀ i, ∃ sp, e i = .identifier sp name := fun i ↦ by
      have hview : (e i).view (μ.view z i) = .identifier default name := by
        rw [show (e i).view (μ.view z i) = (e .old).view (μ.view z .old) from h i, heq, Expr.view]
      exact eq_identifier_of_view hview
    choose sp hsp using hi
    exact ⟨sp, name, funext hsp⟩
  | _ => exact absurd hold (by simp [heq, Expr.isIdentifier])

namespace Spec

variable {g : Grammar}

/-- The clauses of a `switch`. -/
theorem clauses (hg : g.Even z) :
    Spec z j (fun _ ↦ Parse.loop (([], false) : List Clause × Bool) fun (clauses, sawDefault) ↦ do
      match ← Parse.token with
      | .endOfInput => return .inr clauses.reverse
      | .rightBrace =>
        Parse.next
        return .inr clauses.reverse
      | _ =>
        let start ← Parse.here
        match ← Script.clause g with
        | .mk none body =>
          if sawDefault then Parse.note start .duplicateDefault
          return .inl (.mk none body :: clauses, true)
        | .mk test body => return .inl (.mk test body :: clauses, sawDefault)) (Reads z j) := by
  refine loop (I := fun a j' ↦ Reads z j (fun i ↦ (a i).1.reverse) j' ∧ ∃ b, ∀ i, (a i).2 = b) ?_
    ⟨.nil (grows_refl j), false, fun _ ↦ rfl⟩ fun j' hd ↦ .const hd _
  rintro a j1 - ⟨hclauses, sawDefault, hsaw⟩
  obtain ⟨clauses, flags, rfl⟩ := exists_pair a
  obtain rfl : flags = fun _ ↦ sawDefault := funext hsaw
  refine token ?_
  split
  · exact pure_inr hclauses
  · exact next fun j2 _ hp2 ↦ pure_inr (hclauses.trans hp2.grows)
  · refine here (bind (clause hg) fun c j2 _ hc ↦ ?_)
    have hmore := hclauses.snoc hc
    obtain ⟨test, body, rfl⟩ := exists_clause c
    obtain rfl | ⟨e, rfl, -⟩ := (alike_clause.1 (hc.alike .shape trivial)).1.option
    · refine noteIf fun dirty hdirty ↦ pure_inl
        (a := fun i ↦ (Clause.mk none (body i) :: clauses i, true)) ⟨?_, true, fun _ ↦ rfl⟩
      exact hmore.trans (grows_dirty hdirty)
    · exact pure_inl (a := fun i ↦ (Clause.mk (some (e i)) (body i) :: clauses i, sawDefault))
        ⟨hmore, sawDefault, fun _ ↦ rfl⟩

/-- A `switch` is read alike. -/
theorem switchStatement (hg : g.Even z) :
    Spec z j (fun _ ↦ Script.switchStatement g) (Reads z j) := by
  unfold Script.switchStatement
  refine discard_expect fun j1 _ hp1 _ ↦ bind (headExpression hg) fun e j2 _ he ↦ ?_
  refine discard_expect fun j3 _ hp3 _ ↦
    scope (inScope (bind (clauses hg) fun cs j4 _ hcs ↦ inScope (pure ?_)))
  refine (((he.after hp1.grows).trans hp3.grows).pair (hcs.after (grows_refl j3))).inScope _ |>.node
    (fun p ↦ .switch p.1 p.2) (fun v i ↦ ?_) fun i ↦ ?_
  · simp [Stmt.view]
  · simp [Tree.entries, Stmt.occurrences]

/-- The handler of a `try` is read alike, or is absent on both sides. -/
theorem handler (hg : g.Even z) :
    Spec z j (fun _ ↦ Script.handler g) fun h j' ↦ Reads z j h j' ∧
      (h = (fun _ ↦ .absent) ∨ ∃ (parameter : Side → Option Expr) (body : Side → List Stmt),
        h = fun i ↦ .mk (parameter i) (body i)) := by
  unfold Script.handler
  refine isAt (choice (fun _ ↦ next fun j1 _ hp1 ↦ isAt ?_) fun _ ↦ pure ⟨?_, .inl rfl⟩)
  swap
  · exact .leaf (grows_refl j) .absent (fun _ _ ↦ rfl) fun _ ↦ rfl
  have hrest : ∀ (parameter : Side → Option Expr) j2, Reads z j parameter j2 → Spec z j2 (fun i ↦ do
      return Handler.mk (parameter i) (← Script.block g).1) fun h j' ↦ Reads z j h j' ∧
        (h = (fun _ ↦ .absent) ∨ ∃ (parameter : Side → Option Expr) (body : Side → List Stmt),
          h = fun i ↦ .mk (parameter i) (body i)) := by
    intro parameter j2 hparameter
    refine bind (block hg) fun r j3 _ hr ↦ pure ⟨?_, .inr ⟨parameter, fun i ↦ (r i).1, rfl⟩⟩
    refine (hparameter.pair hr.reads).node (fun p ↦ .mk p.1 p.2) (fun v i ↦ ?_) fun i ↦ ?_
    · simp [Handler.view]
    · simp [Tree.entries, Handler.occurrences]
  dsimp only
  refine choice (fun _ ↦ next fun j2 _ hp2 ↦ ?_) fun _ ↦ hrest (fun _ ↦ none) j1 (.none hp1.grows)
  refine bind (bindingTarget hg) fun target j3 _ htarget ↦ discard_expect fun j4 _ hp4 _ ↦ ?_
  refine hrest (fun i ↦ some (target i)) j4 (Reads.some ?_)
  exact (htarget.toReads.after (hp1.grows.trans hp2.grows)).trans hp4.grows

/-- A `try` is read alike. -/
theorem tryStatement (hg : g.Even z) : Spec z j (fun _ ↦ Script.tryStatement g) (Reads z j) := by
  unfold Script.tryStatement
  refine expect fun j1 _ hp1 _ ↦ bind (block hg) fun r j2 _ hr ↦ bind (handler hg) ?_
  rintro h j3 - ⟨hh, hform⟩
  have hboth := (hr.reads.after hp1.grows).pair hh
  have htry : ∀ (finalizer : Side → Option Stmt) j4, Reads z j3 finalizer j4 →
      Reads z j (fun i ↦ Stmt.tryCatch (r i).1 (h i) (finalizer i)) j4 := by
    intro finalizer j4 hfinalizer
    refine (hboth.pair hfinalizer).node (fun p ↦ .tryCatch p.1.1 p.1.2 p.2) (fun v i ↦ ?_) fun i ↦ ?_
    · simp [Stmt.view]
    · simp [Tree.entries, Stmt.occurrences]
  refine isAt ?_
  dsimp only
  refine choice (fun _ ↦ next fun j4 _ hp4 ↦ bind (blockStatement hg) fun s j5 _ hs ↦ ?_) fun _ ↦ ?_
  · have hread := htry (fun i ↦ some (s i)) j5 (hs.after hp4.grows).some
    obtain rfl | ⟨parameter, body, rfl⟩ := hform
    · exact pure hread
    · exact pure hread
  · obtain rfl | ⟨parameter, body, rfl⟩ := hform
    · exact of_eq (n := fun i ↦ do
        Parse.note (z.offset i j.place) .tryAlone
        return .bad) (fun _ ↦ rfl) (note (pure (.const rfl _)))
    · exact pure (htry (fun _ ↦ none) j3 (.none (grows_refl _)))

/-- Declarations. -/
theorem declaration {bs : Side → List Binding} (h : Reads z j bs j') (kind : DeclarationKind) :
    Reads z j (fun i ↦ Stmt.declaration kind (bs i)) j' := by
  refine h.node (fun bs ↦ .declaration kind bs) (fun v i ↦ ?_) fun i ↦ ?_
  · simp [Stmt.view]
  · simp [Tree.entries, Stmt.occurrences]

/-- A `var` statement is read alike. -/
theorem varStatement (hg : g.Even z) : Spec z j (fun _ ↦ Script.varStatement g) (Reads z j) := by
  unfold Script.varStatement
  refine discard_expect fun j1 _ hp1 _ ↦ bind (variableDeclarations hg) fun bs j2 _ hbs ↦ ?_
  refine bind (requireInitializers (hbs.alike .shape trivial)) fun _ j3 _ hg3 ↦ ?_
  exact semicolon fun j4 _ hg4 ↦
    pure (declaration ((hbs.after hp1.grows).trans (hg3.trans hg4)) .var)

/-- A `let` or `const` statement is read alike. -/
theorem lexicalStatement (hg : g.Even z) {kind : DeclarationKind} :
    Spec z j (fun _ ↦ Script.lexicalStatement g kind) (Reads z j) := by
  unfold Script.lexicalStatement
  refine here (next fun j1 _ hp1 ↦ scope ?_)
  dsimp only
  refine noteIf fun dirty hdirty ↦ bind (variableDeclarations hg) fun bs j2 _ hbs ↦ ?_
  refine bind (requireInitializers (hbs.alike .shape trivial)) fun _ j3 _ hg3 ↦ ?_
  exact semicolon fun j4 _ hg4 ↦ pure (declaration
    ((hbs.after (hp1.grows.trans (grows_dirty hdirty))).trans (hg3.trans hg4)) kind)

/-- A `with` statement is read alike. -/
theorem withStatement (hg : g.Even z) :
    Spec z j (fun _ ↦ Script.withStatement g) (Reads z j) := by
  unfold Script.withStatement
  refine discard_expect fun j1 _ hp1 _ ↦ bind (headExpression hg) fun e j2 _ he ↦ ?_
  refine bind (nestedStatement hg) fun body j3 _ hbody ↦ pure ?_
  refine ((he.after hp1.grows).pair hbody).node (fun p ↦ .scoped p.1 p.2) (fun v i ↦ ?_) fun i ↦ ?_
  · simp [Stmt.view]
  · simp [Tree.entries, Stmt.occurrences]

theorem debuggerStatement : Spec z j (fun _ ↦ Script.debuggerStatement) (Reads z j) :=
  discard_expect fun _ _ hp1 _ ↦ semicolon fun _ _ hg2 ↦
    pure (.leaf (hp1.grows.trans hg2) .debugger (fun _ _ ↦ rfl) fun _ ↦ rfl)

/-- An expression statement, or a statement with a label, is read alike. -/
theorem expressionStatement (hg : g.Even z) :
    Spec z j (fun _ ↦ Script.expressionStatement g) (Reads z j) := by
  unfold Script.expressionStatement
  refine bind (expression hg) fun e j1 _ he ↦ token ?_
  have hplain : Spec z j1 (fun i ↦ do
      Parse.optionalSemicolon
      return Stmt.expression (e i)) (Reads z j) := by
    refine optionalSemicolon fun j2 _ hg2 ↦ pure ?_
    refine (he.toReads.trans hg2).node (fun e ↦ .expression e) (fun v i ↦ ?_) fun i ↦ ?_
    · simp [Stmt.view]
    · simp [Tree.entries, Stmt.occurrences]
  by_cases hlabel : (e .old).isIdentifier = true ∧ j1.token = .colon
  · obtain ⟨sp, name, rfl⟩ := (he.alike .shape trivial).identifier hlabel.1
    simp only [hlabel.2]
    refine next fun j2 _ hp2 ↦ scope ?_
    refine noteIf fun dirty hdirty ↦ inScope ?_
    refine bind (nestedStatement hg) fun body j3 _ hbody ↦ inScope (pure ?_)
    have hgrows := he.grows.trans (hp2.grows.trans ((grows_dirty hdirty).trans (grows_refl _)))
    refine ((hbody.after hgrows).inScope _).node (fun s ↦ .labelled name s) (fun v i ↦ ?_) fun i ↦ ?_
    · simp [Stmt.view]
    · simp [Tree.entries, Stmt.occurrences]
  · refine of_eq (fun i ↦ ?_) hplain
    have hi := (he.alike .shape trivial).test isIdentifier_view i
    cases heq : e i with
    | identifier sp name =>
      have hcolon : j1.token ≠ .colon := fun ht ↦ hlabel ⟨by rw [← hi, heq]; rfl, ht⟩
      generalize j1.token = t at hcolon
      cases t with
      | colon => exact absurd rfl hcolon
      | _ => rfl
    | _ => rfl

/-- A word may end a statement before a line break. -/
theorem insertSemicolon {β : Type} {R : (Side → β) → Joint → Prop} {f : Side → Unit → Parse β}
    (h : Spec z j (fun i ↦ f i ()) R) :
    Spec z j (fun i ↦ (modify fun s ↦
      { s with lexer := { s.lexer with insertSemicolon := true } }) >>= f i) R := by
  refine write (a := fun _ ↦ ())
    (g := fun _ s ↦ { s with lexer := { s.lexer with insertSemicolon := true } })
    (fun _ _ ↦ rfl) (fun s hs ↦ ?_) h
  have hj := hs.holds
  exact hs.step (fun _ ↦ rfl) ⟨hj.lexes, hj.paces, ⟨true, fun _ ↦ rfl⟩, hj.implicit, hj.ahead,
    hj.joined, hj.follows⟩ rfl

/-- A function that was read is a statement that was read. -/
theorem functionStatement {f : Side → Function} (h : Reads z j f j') :
    Reads z j (fun i ↦ Stmt.function (f i)) j' := by
  refine h.node (fun f ↦ .function f) (fun v i ↦ ?_) fun i ↦ ?_
  · simp [Stmt.view]
  · simp [Tree.entries, Stmt.occurrences]

/-- **Statements.** -/
theorem statement (hg : g.Even z) : Spec z j (fun _ ↦ Script.statement g) (Reads z j) := by
  unfold Script.statement
  refine token ?_
  split
  · exact unexpected (pure (.const rfl _))
  · exact next fun j1 _ hp1 ↦ pure (.leaf hp1.grows .empty (fun _ _ ↦ rfl) fun _ ↦ rfl)
  · exact blockStatement hg
  · exact ifStatement hg
  · exact doWhileStatement hg
  · exact whileStatement hg
  · exact forStatement hg
  · exact jumpStatement
  · exact jumpStatement
  · exact debuggerStatement
  · exact withStatement hg
  · exact varStatement hg
  · exact lexicalStatement hg
  · refine peek fun t dirty hdirty ↦ scope (choice (fun _ ↦ ?_) fun _ ↦ insertSemicolon ?_)
    · exact (lexicalStatement hg).mono fun s j1 _ hs ↦ hs.after (grows_dirty hdirty)
    · exact (expressionStatement hg).mono fun s j1 _ hs ↦ hs.after (grows_dirty hdirty)
  · refine bind (asyncFunction? hg) ?_
    rintro _ j1 - (⟨f, rfl, hf⟩ | ⟨rfl, dirty, hdirty, rfl⟩)
    · exact pure (functionStatement hf.toReads.ofFunction)
    · exact (expressionStatement hg).mono fun s j1 _ hs ↦ hs.after (grows_dirty hdirty)
  · refine here (bind (function hg) ?_)
    rintro f j1 - ⟨k, hk, hf⟩
    exact pure (functionStatement (hf.toReads.after hk.grows))
  · refine bind (classBody hg) fun c j1 _ hc ↦ pure (hc.toReads.node (fun c ↦ .classDeclaration c)
      (fun v i ↦ ?_) fun i ↦ ?_)
    · simp [Stmt.view]
    · simp [Tree.entries, Stmt.occurrences]
  · exact switchStatement hg
  · exact returnStatement hg
  · exact throwStatement hg
  · exact tryStatement hg
  · exact expressionStatement hg

end Spec

end ColonGap.Script
