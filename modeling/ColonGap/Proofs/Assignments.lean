import ColonGap.Proofs.Operators

/-!
# Assignments and arrow functions, on both sides

The head of an arrow function is read as an expression first. Where it is read again, it is from a
mark, and `Heads` says that the two marks are of one place. Reading goes back to that place, so
what was read in between is not part of the trace.
-/

namespace ColonGap.Script

open Piece

variable {z : Respacing} {j j' j'' k : Joint}

/-! ### Heads of arrow functions -/

/-- How a head of an arrow function starts is the same on both sides. -/
inductive Heads (z : Respacing) (k : Joint) : (Side → ArrowHead) → Prop
  | plain : Heads z k fun _ ↦ .plain
  | parenthesis {m : Side → Parse.Mark} {l : Joint} (hm : Spec.Marks z l m) (hg : Grows k l) :
      Heads z k fun i ↦ .parenthesis (m i)
  | asyncCall {m : Side → Parse.Mark} {l : Joint} (hm : Spec.Marks z l m) (hg : Grows k l) :
      Heads z k fun i ↦ .asyncCall (m i)

def Expr.isIdentifier : Expr → Bool
  | .identifier _ _ => true
  | _ => false

def Expr.isSequence : Expr → Bool
  | .sequence _ _ => true
  | _ => false

def Expr.isCall : Expr → Bool
  | .call _ _ _ => true
  | _ => false

theorem isIdentifier_view (v : View) (e : Expr) : (e.view v).isIdentifier = e.isIdentifier := by
  cases e <;> rfl

theorem isSequence_view (v : View) (e : Expr) : (e.view v).isSequence = e.isSequence := by
  cases e <;> rfl

theorem isCall_view (v : View) (e : Expr) : (e.view v).isCall = e.isCall := by
  cases e <;> rfl

/-- A sequence has a span and items. -/
theorem Expr.eq_sequence {e : Expr} (h : e.isSequence = true) : ∃ sp items, e = .sequence sp items := by
  cases e with
  | sequence sp items => exact ⟨sp, items, rfl⟩
  | _ => exact absurd h Bool.false_ne_true

/-- The items of a comma expression. -/
theorem Reads.ofSequence {sp : Side → Span} {items : Side → List Expr}
    (h : Reads z j (fun i ↦ Expr.sequence (sp i) (items i)) j') : Reads z j items j' where
  grows := h.grows
  alike μ hμ i := by
    have hi := h.alike μ hμ i
    simp only [Tree.view_expr, Expr.view, Expr.sequence.injEq, true_and, viewList_eq] at hi
    exact hi
  entries hd := (h.entries hd).of_eq fun i ↦ by
    simp only [Tree.entries_expr, Expr.occurrences, Tree.entries_inList]

/-- A single name as the parameters. -/
theorem Reads.parameter {e : Side → Expr} (h : Reads z j e j') :
    Reads z j (fun i ↦ Parameters.mk [.mk (e i) Option.none] Option.none) j' :=
  ((Reads.nil (grows_refl j)).snoc h.bindingAlone).parameters

section

variable (g : Grammar) (start : Nat) {e : Expr}

/-- An identifier in front of an arrow is the only parameter, whatever head was read. -/
theorem arrowFrom_identifier (h : e.isIdentifier = true) (head : ArrowHead) :
    arrowFrom g start head e
      = arrowFunction g start (.mk [.mk e none] none)
          (match head with | .asyncCall _ => true | _ => false) := by
  cases e with
  | identifier => cases head <;> rfl
  | _ => exact absurd h Bool.false_ne_true

/-- Without a parenthesis nothing but an identifier may stand in front of an arrow. -/
theorem arrowFrom_plain (h : e.isIdentifier = false) :
    arrowFrom g start .plain e
      = (do Parse.note e.start .malformedArrow; return .bad e.span) := by
  cases e with
  | identifier => exact absurd h.symm Bool.false_ne_true
  | _ => rfl

/-- A parenthesised head is read again as a list of parameters, from its mark. -/
theorem arrowFrom_parenthesis (h : e.isIdentifier = false) (h' : e.isSequence = false)
    (place : Parse.Mark) :
    arrowFrom g start (.parenthesis place) e
      = (do Parse.restore place; arrowFunction g start (← parameters g) false) := by
  cases e with
  | identifier => exact absurd h.symm Bool.false_ne_true
  | sequence => exact absurd h'.symm Bool.false_ne_true
  | _ => rfl

/-- The arguments of a call behind `async` are read again as parameters, from their mark. -/
theorem arrowFrom_call (h : e.isCall = true) (place : Parse.Mark) :
    arrowFrom g start (.asyncCall place) e
      = (do
        Parse.restore place
        let saved := (← Parse.scope).allowYield
        Parse.withReserved true saved do
          Parse.next
          arrowFunction g start (← parameters g) true) := by
  cases e with
  | call => rfl
  | _ => exact absurd h Bool.false_ne_true

/-- Behind `async` nothing but an identifier or a call may stand in front of an arrow. -/
theorem arrowFrom_asyncCall (h : e.isIdentifier = false) (h' : e.isCall = false)
    (place : Parse.Mark) :
    arrowFrom g start (.asyncCall place) e
      = (do Parse.note e.start .malformedArrow; return .bad e.span) := by
  cases e with
  | identifier => exact absurd h.symm Bool.false_ne_true
  | call => exact absurd h'.symm Bool.false_ne_true
  | _ => rfl

end

namespace Spec

variable {g : Grammar}

/-- **Arrow functions.** The head has been read from `k` on, as an expression. -/
theorem arrowFrom (hg : g.Even z) (hk : Sound z k) {head : Side → ArrowHead} (hhead : Heads z k head)
    {left : Side → Expr} (hleft : ReadsExpr z k left j) :
    Spec z j (fun i ↦ Script.arrowFrom g (z.offset i k.place) (head i) (left i)) (ReadsExpr z k) := by
  have hshape := hleft.alike .shape trivial
  cases hname : (left .old).isIdentifier with
  | true =>
    simp only [arrowFrom_identifier g _ ((hshape.test isIdentifier_view _).trans hname)]
    have hps := hleft.toReads.parameter
    cases hhead with
    | plain | parenthesis | asyncCall => exact arrowFunction hg hk hps
  | false =>
    have hname : ∀ i, (left i).isIdentifier = false := fun i ↦
      (hshape.test isIdentifier_view i).trans hname
    cases hhead with
    | plain =>
      simp only [arrowFrom_plain g _ (hname _)]
      exact note (pure (.bad rfl))
    | @parenthesis m l hm hgl =>
      cases hsequence : (left .old).isSequence with
      | false =>
        simp only [arrowFrom_parenthesis g _ (hname _)
          ((hshape.test isSequence_view _).trans hsequence)]
        refine restore hm (bind (parameters hg) fun ps j1 _ hps ↦
          arrowFunction hg hk (hps.after ?_))
        exact hgl.trans (grows_refl _)
      | true =>
        choose sp items hitems using fun i ↦
          Expr.eq_sequence ((hshape.test isSequence_view i).trans hsequence)
        obtain rfl : left = fun i ↦ .sequence (sp i) (items i) := funext hitems
        refine isClean ?_
        dsimp only
        refine choice (fun _ ↦ ?_) fun _ ↦ ?_
        · exact bind (asParameters hleft.toReads.ofSequence) fun ps j1 _ hps ↦ arrowFunction hg hk hps
        · refine restore hm (bind (parameters hg) fun ps j1 _ hps ↦
            arrowFunction hg hk (hps.after ?_))
          exact hgl.trans (grows_refl _)
    | @asyncCall m l hm hgl =>
      cases hcall : (left .old).isCall with
      | false =>
        simp only [arrowFrom_asyncCall g _ (hname _) ((hshape.test isCall_view _).trans hcall)]
        exact note (pure (.bad rfl))
      | true =>
        simp only [arrowFrom_call g _ ((hshape.test isCall_view _).trans hcall)]
        refine restore hm (scope (withReserved ?_ fun e j' scope he ↦ he.inScope scope))
        refine next fun j1 _ hp1 ↦ bind (parameters hg) fun ps j2 _ hps ↦
          arrowFunction hg hk (hps.after ?_)
        exact hgl.trans ((grows_refl _).trans hp1.grows)

end Spec

/-! ### Assignments -/

/-- Whether an expression is the literal of an array or an object. -/
def Expr.isCollection : Expr → Bool
  | .array _ _ | .object _ _ => true
  | _ => false

theorem isCollection_view (v : View) (e : Expr) : (e.view v).isCollection = e.isCollection := by
  cases e <;> rfl

namespace Spec

variable {g : Grammar}

/-- The left side of an assignment is a target on both sides, or on none. -/
theorem assignmentTarget? {isParenthesized : Bool} {operator : Token} {left : Side → Expr}
    (hshape : Alike z .shape left) (hcommas : j.dirty = false → Alike z .commas left) :
    Spec z j (fun i ↦ Script.assignmentTarget? isParenthesized operator (left i)) fun r j' ↦
      r = (fun _ ↦ none) ∨
        ∃ target : Side → Expr, r = (fun i ↦ some (target i)) ∧ RecastExpr z j left target j' := by
  unfold Script.assignmentTarget?
  simp only [hshape.test isReference_view]
  refine choice (fun _ ↦ pure (.inr ⟨left, rfl, .refl hshape⟩)) fun _ ↦ ?_
  refine of_eq (n := fun i ↦ if (left i).isCollection && !isParenthesized && operator == .assign then
      (do return some (← Script.assignTarget false (left i))) else Pure.pure none) (fun i ↦ ?_) ?_
  · cases left i with
    | array | object => simp only [Expr.isCollection, Bool.true_and]
    | _ => rfl
  simp only [hshape.test isCollection_view]
  refine choice (fun _ ↦ ?_) fun _ ↦ pure (.inl rfl)
  refine bind (rereads_assignTarget _ false left j (Nat.lt_succ_self _) hshape hcommas) ?_
  exact fun target j1 _ htarget ↦ pure (.inr ⟨target, rfl, htarget⟩)

/-- The right-hand side of an assignment whose left-hand side has been read. -/
theorem assignTo (hg : g.Even z) {left : Side → Expr} (hleft : ReadsExpr z k left j)
    (hp : Passed j j') (isParenthesized : Bool) :
    Spec z j' (fun i ↦ do
      match ← Script.assignmentTarget? isParenthesized j.token (left i) with
      | some target =>
        let right ← g.expr .assignment
        return .assignment ⟨target.start, right.stop⟩ j.token target right
      | none =>
        Parse.note (left i).start .badAssignmentTarget
        Parse.skipFrom (z.offset i j.place)) (ReadsExpr z k) := by
  refine bind (assignmentTarget? (hleft.alike .shape trivial) fun hd ↦
    hleft.alike .commas (hp.clean hd)) ?_
  rintro _ j2 - (rfl | ⟨target, rfl, htarget⟩)
  · exact note (skipFrom rfl)
  refine bind (hg.expr .assignment j2) fun right j3 hs3 hright ↦ pure (.ending ?_ hright (fun i ↦ ?_)
    (fun _ ↦ rfl) rfl fun hd ↦ ?_)
  · refine ((htarget.reads (hleft.toReads.trans hp.grows)).pair hright.toReads).node
      (fun p ↦ .assignment default j.token p.1 p.2) (fun v i ↦ ?_) fun i ↦ ?_
    · simp [Expr.view]
    · simp [Tree.entries_expr, Expr.occurrences]
  · simp only [Expr.endsExactly]
  · -- Re-reading keeps where the target starts.
    have hkept := htarget.kept (hright.grows.clean hd)
    have hgrows := hp.grows.trans (htarget.grows.trans hright.grows)
    intro i n hn
    have hsame : (target i).start = (left i).start := congrArg Span.start (hkept i).span
    exact hleft.between hs3 hgrows hd i n (hsame.symm.trans hn)

/-- What follows the left side of an assignment, or the head of an arrow function, is read alike. -/
theorem assignmentTail (hg : g.Even z) (hk : Sound z k) {head : Side → ArrowHead}
    (hhead : Heads z k head) {left : Side → Expr} (hleft : ReadsExpr z k left j) :
    Spec z j (fun i ↦ Script.assignmentTail g (z.offset i k.place) (head i) (left i))
      (ReadsExpr z k) := by
  unfold Script.assignmentTail
  refine lexeme fun x hx ↦ ?_
  simp only [hx.token, hx.start]
  refine choice (fun _ ↦ arrowFrom hg hk hhead hleft) fun _ ↦ choice (fun _ ↦ ?_) fun _ ↦ pure hleft
  refine next fun j1 _ hp1 ↦ ?_
  cases hhead with
  | plain | parenthesis | asyncCall => exact assignTo hg hleft hp1 _

/-- Without an argument, `yield` ends where the word ends, unless a star follows it. -/
theorem bareYield (hs : Sound z j) (hp : Passed j k) (ht : k.dirty = false → j.token = .yieldWord)
    (hs' : Sound z j') (hg : Grows k j') {delegate : Bool}
    (hlast : delegate = false → j'.last z = k.last z) :
    ReadsExpr z j (fun i ↦ .yield ⟨z.offset i j.place, z.offset i j.place + 5⟩ delegate none) j' := by
  refine ⟨.leaf (hp.grows.trans hg) (.yield default delegate none) (fun v i ↦ ?_) fun i ↦ ?_, fun hd ↦
    ⟨hs.between hp hs' hg hd, ⟨!delegate, fun i ↦ ?_, fun hplain ↦ ?_⟩,
      fun h ↦ absurd h Bool.false_ne_true, rfl⟩⟩
  · simp [Expr.view]
  · simp [Tree.entries_expr, Expr.occurrences]
  · simp only [Expr.endsExactly, endsExactly?]
  · rw [hlast (by simpa using hplain)]
    exact hs.endedWord hp (by rw [ht (hg.clean hd)]; decide)

/-- The argument of `yield`, if there is one. -/
theorem yieldArgument (hg : g.Even z) (hs : Sound z j) (hp : Passed j k)
    (ht : k.dirty = false → j.token = .yieldWord) (hs' : Sound z j') (hg' : Grows k j')
    {delegate : Bool} (hlast : delegate = false → j'.last z = k.last z) :
    Spec z j' (fun i ↦ do
      let t ← Parse.token
      if !(← Parse.implicitSemicolon) && t != .semicolon && t != .rightBrace && t != .endOfInput then
        let place ← Parse.mark
        match ← g.expr .assignment with
        | .bad _ =>
          Parse.restore place
          return .yield ⟨z.offset i j.place, z.offset i j.place + 5⟩ delegate none
        | argument => return .yield ⟨z.offset i j.place, argument.stop⟩ delegate (some argument)
      else return .yield ⟨z.offset i j.place, z.offset i j.place + 5⟩ delegate none)
    (ReadsExpr z j) := by
  refine token (implicitSemicolon (choice (fun _ ↦ ?_) fun _ ↦ pure (bareYield hs hp ht hs' hg' hlast)))
  refine mark fun m hm ↦ bind (hg.expr .assignment j') fun argument j3 hs3 hargument ↦ ?_
  obtain ⟨sp, rfl⟩ | hne := (hargument.alike .shape trivial).bad_or_not
  · refine restore hm (of_sound fun hs4 ↦ pure ?_)
    exact bareYield hs hp ht hs4 (hg'.trans (grows_refl _)) hlast
  · refine of_eq (n := fun i ↦ Pure.pure
      (.yield ⟨z.offset i j.place, (argument i).stop⟩ delegate (some (argument i)))) (fun i ↦ ?_) ?_
    · have hi := hne i
      generalize argument i = e at hi
      cases e with
      | bad sp => exact absurd rfl (hi sp)
      | _ => rfl
    refine pure (.ending ?_ hargument (fun i ↦ ?_) (fun _ ↦ rfl) rfl fun hd ↦ ?_)
    · refine (hargument.toReads.after (hp.grows.trans hg')).node
        (fun e ↦ .yield default delegate (some e)) (fun v i ↦ ?_) fun i ↦ ?_
      · simp [Expr.view]
      · simp [Tree.entries_expr, Expr.occurrences]
    · simp only [Expr.endsExactly, endsExactly?]
    · exact hs.between hp hs3 (hg'.trans hargument.grows) hd

/-- A `yield` expression is read alike. -/
theorem yieldExpression (hg : g.Even z) :
    Spec z j (fun _ ↦ Script.yieldExpression g) (ReadsExpr z j) := by
  unfold Script.yieldExpression
  refine of_sound fun hs ↦ expect fun j1 hs1 hp1 ht1 ↦ scope ?_
  refine noteIf fun dirty hdirty ↦ implicitSemicolon (isAt ?_)
  generalize (!j1.implicit && j1.token == Token.times) = delegate
  have hdirtied := grows_dirty hdirty
  dsimp only
  refine choice (fun htrue ↦ next fun j2 hs2 hp2 ↦ ?_) fun _ ↦ of_sound fun hs2 ↦ ?_
  · exact yieldArgument hg hs hp1 ht1 hs2 (hdirtied.trans hp2.grows) fun hfalse ↦
      absurd htrue (by simp [hfalse])
  · exact yieldArgument hg hs hp1 ht1 hs2 hdirtied fun _ ↦ rfl

/-- An assignment expression is read alike. -/
theorem assignment (hg : g.Even z) : Spec z j (fun _ ↦ Script.assignment g) (ReadsExpr z j) := by
  unfold Script.assignment
  refine of_sound fun hs ↦ lexeme fun x hx ↦ ?_
  simp only [hx.token, hx.start]
  split
  · refine mark fun m hm ↦ bind (conditional hg) fun left j1 _ hleft ↦ ?_
    exact assignmentTail hg hs (.parenthesis hm (grows_refl j)) hleft
  · refine peek fun t dirty hdirty ↦ of_sound fun hs' ↦ canBind (choice (fun _ ↦ ?_) fun _ ↦ ?_)
    · refine next fun j1 _ hp1 ↦ asyncArrow hg hs ?_
      exact (grows_dirty hdirty).trans hp1.grows
    · have hrest : ∀ head : Side → ArrowHead, Heads z j head → Spec z { j with dirty := dirty }
          (fun i ↦ do Script.assignmentTail g (z.offset i j.place) (head i) (← Script.conditional g))
          (ReadsExpr z j) := fun head hhead ↦
        bind (conditional hg) fun left j1 _ hleft ↦
          assignmentTail hg hs hhead (hleft.after hs' (grows_dirty hdirty))
      refine choice (fun _ ↦ mark fun m hm ↦ ?_) fun _ ↦ ?_
      · simp only [pure_bind]
        exact hrest _ (.asyncCall hm (grows_dirty hdirty))
      · simp only [pure_bind]
        exact hrest _ .plain
  · refine scope (choice (fun _ ↦ yieldExpression hg) fun _ ↦ bindable (of_sound fun hs' ↦ ?_))
    exact bind (conditional hg) fun left j1 _ hleft ↦
      assignmentTail hg hs .plain (hleft.after hs' (grows_bound j))

end Spec

end ColonGap.Script
