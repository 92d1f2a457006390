import ColonGap.Proofs.Literals
import ColonGap.Script.Parser.Function

/-!
# Variables and functions, on both sides

Declared variables, formal parameters and the bodies of functions. A body opens a scope of its own;
which scope it returns to is the same on both sides, but not recorded in the joint state.
-/

namespace ColonGap.Script

open Piece

variable {z : Respacing} {j j' j'' k : Joint}

/-! ### More about what is read -/

/-- Something has been passed before. -/
theorem ReadsExpr.after {e : Side → Expr} (h : ReadsExpr z k e j') (hs : Sound z k)
    (hg : Grows j k) : ReadsExpr z j e j' :=
  ⟨h.toReads.after hg, fun hd ↦ { h.clear hd with
    start := Between.after (h.clear hd).start hs hg (h.grows.clean hd) }⟩

/-- The scope at the start does not matter. -/
theorem ReadsExpr.unscope {e : Side → Expr} {scope : Scope}
    (h : ReadsExpr z { j with scope := scope } e j') : ReadsExpr z j e j' :=
  ⟨h.toReads.after (grows_refl j), fun hd ↦ { h.clear hd with }⟩

theorem grows_dirty {dirty : Bool} (h : dirty = false → j.dirty = false) :
    Grows j { j with dirty := dirty } :=
  fun hd ↦ ⟨h hd, List.suffix_rfl, List.suffix_rfl⟩

theorem grows_bound (j : Joint) : Grows j (Spec.bound j) := by
  unfold Spec.bound
  split <;> exact grows_refl _

/-- A test that views do not affect is answered alike. -/
theorem Alike.test {e : Side → Expr} {μ : Mode} (h : Alike z μ e) {p : Expr → Bool}
    (hp : ∀ v e, p (Expr.view v e) = p e) (i : Side) : p (e i) = p (e .old) := by
  have hi : (e i).view (μ.view z i) = (e .old).view (μ.view z .old) := h i
  rw [← hp (μ.view z i), hi, hp]

/-- A step fails to find the token it needs. -/
theorem dirty_of_ne {t : Token} (h : j'.dirty = false → j.token = t) (hne : j.token ≠ t) :
    j'.dirty = true := by
  cases hd : j'.dirty with
  | true => rfl
  | false => exact absurd (h hd) hne

namespace Reads

variable {target value : Side → Expr}

/-- A target and a value that were read are a binding that was read. -/
theorem binding (ht : Reads z j target j') (hv : Reads z j' value j'') :
    Reads z j (fun i ↦ Binding.mk (target i) (Option.some (value i))) j'' := by
  refine (ht.pair hv).node (fun p ↦ .mk p.1 (Option.some p.2)) (fun v i ↦ ?_) fun i ↦ ?_
  · simp [Binding.view]
  · simp [entries_binding]

/-- A target that was read is a binding without a value. -/
theorem bindingAlone (ht : Reads z j target j') :
    Reads z j (fun i ↦ Binding.mk (target i) Option.none) j' := by
  refine ht.node (fun p ↦ .mk p Option.none) (fun v i ↦ ?_) fun i ↦ ?_
  · simp [Binding.view]
  · simp [entries_binding]

end Reads

namespace Spec

variable {g : Grammar}

/-! ### Variables -/

/-- A binding target is read alike. -/
theorem bindingTarget (hg : g.Even z) :
    Spec z j (fun _ ↦ Script.bindingTarget g) (ReadsExpr z j) := by
  unfold Script.bindingTarget
  refine bindable (of_sound fun hs ↦ token ?_)
  refine Spec.mono (Q := ReadsExpr z (bound j)) ?_ fun e j' _ he ↦ he.after hs (grows_bound j)
  split
  case h_1 ht => exact identifier (by rw [ht]; rfl)
  · exact bind (arrayLiteral hg) fun e j1 _ he ↦ bindTarget he
  · exact bind (hg.expr .object _) fun e j1 _ he ↦ bindTarget he
  case h_4 hne _ _ =>
    exact expect fun j1 _ _ ht ↦ skipFrom (dirty_of_ne ht hne)

/-- The declaration of a variable is read alike. -/
theorem variableDeclaration (hg : g.Even z) :
    Spec z j (fun _ ↦ Script.variableDeclaration g) (Reads z j) := by
  unfold Script.variableDeclaration
  refine bind (bindingTarget hg) fun target j1 _ ht ↦ isAt ?_
  refine choice (fun _ ↦ ?_) fun _ ↦ ?_
  · refine next fun j2 _ hp ↦ bind (hg.expr .assignment j2) fun value j3 _ hv ↦ pure ?_
    exact ht.toReads.binding (hv.toReads.after hp.grows)
  · exact pure ht.toReads.bindingAlone

/-- Declarations of variables are read alike. -/
theorem variableDeclarations (hg : g.Even z) :
    Spec z j (fun _ ↦ Script.variableDeclarations g) (Reads z j) := by
  unfold Script.variableDeclarations
  refine loop (I := fun bs ↦ Reads z j fun i ↦ (bs i).reverse) ?_ (.nil (grows_refl j))
    fun j' hd ↦ .const hd _
  intro bs j1 hs1 hbs
  refine bind (variableDeclaration hg) fun b j2 _ hb ↦ isAt ?_
  refine choice (fun _ ↦ ?_) fun _ ↦ ?_
  · exact next fun j3 _ hp ↦ pure_inl ((hbs.snoc hb).trans hp.grows)
  · exact pure_inr (hbs.snoc hb)

end Spec

/-! ### Initial values -/

/-- Whether an expression is a pattern. -/
def Expr.isPattern : Expr → Bool
  | .arrayPattern _ _ _ | .objectPattern _ _ _ => true
  | _ => false

theorem isPattern_view (v : View) (e : Expr) : (e.view v).isPattern = e.isPattern := by
  cases e <;> rfl

theorem requireInitializers_none (target : Expr) (bs : List Binding) :
    requireInitializers (.mk target none :: bs)
      = if target.isPattern then Parse.note target.stop .missingInitializer
        else requireInitializers bs := by
  cases target <;> rfl

/-- Bindings on both sides have targets and initial values on both sides. -/
theorem exists_binding (b : Side → Binding) :
    ∃ (target : Side → Expr) (initializer : Side → Option Expr),
      b = fun i ↦ .mk (target i) (initializer i) := by
  have hb : ∀ i, ∃ target initializer, b i = .mk target initializer := fun i ↦ by
    cases b i
    exact ⟨_, _, rfl⟩
  choose target initializer hb using hb
  exact ⟨target, initializer, funext hb⟩

/-- Patterns without an initial value are found on both sides. -/
theorem Spec.requireInitializers {bs : Side → List Binding} (h : Alike z .shape bs) :
    Spec z j (fun i ↦ Script.requireInitializers (bs i)) fun _ j' ↦ Grows j j' := by
  induction hlength : (bs .old).length generalizing bs with
  | zero =>
    obtain rfl | ⟨b, bs, rfl, -⟩ := h.list
    · exact pure (grows_refl j)
    · simp at hlength
  | succ n ih =>
    obtain rfl | ⟨b, bs, rfl, hb, hbs⟩ := h.list
    · simp at hlength
    simp only [List.length_cons, Nat.add_right_cancel_iff] at hlength
    obtain ⟨target, initializer, rfl⟩ := exists_binding b
    obtain ⟨htarget, hinitializer⟩ := alike_binding.1 hb
    obtain rfl | ⟨e, rfl, -⟩ := hinitializer.option
    · simp only [requireInitializers_none, htarget.test isPattern_view]
      refine choice (fun _ ↦ ?_) fun _ ↦ ih hbs hlength
      exact alone (note (pure (grows_of_dirty rfl)))
    · simp only [Script.requireInitializers]
      exact ih hbs hlength

/-! ### Parameters -/

/-- Parameters on both sides have bindings and a rest on both sides. -/
theorem exists_parameters (ps : Side → Parameters) :
    ∃ (bs : Side → List Binding) (rest : Side → Option Expr), ps = fun i ↦ .mk (bs i) (rest i) := by
  have hps : ∀ i, ∃ bs rest, ps i = .mk bs rest := fun i ↦ by
    cases ps i
    exact ⟨_, _, rfl⟩
  choose bs rest hps using hps
  exact ⟨bs, rest, funext hps⟩

namespace Reads

variable {bs : Side → List Binding} {rest : Side → Expr}

/-- Bindings that were read are parameters without a rest. -/
theorem parameters (hbs : Reads z j bs j') :
    Reads z j (fun i ↦ Parameters.mk (bs i) Option.none) j' := by
  refine hbs.node (fun bs ↦ .mk bs Option.none) (fun v i ↦ ?_) fun i ↦ ?_
  · simp [Parameters.view]
  · simp [Tree.entries, Parameters.occurrences]

/-- Bindings and a rest that were read are parameters. -/
theorem parametersRest (hbs : Reads z j bs j') (hrest : Reads z j' rest j'') :
    Reads z j (fun i ↦ Parameters.mk (bs i) (Option.some (rest i))) j'' := by
  refine (hbs.pair hrest).node (fun p ↦ .mk p.1 (Option.some p.2)) (fun v i ↦ ?_) fun i ↦ ?_
  · simp [Parameters.view]
  · simp [Tree.entries, Parameters.occurrences]

end Reads

/-- Parameters look alike exactly if their bindings and their rests do. -/
theorem alike_parameters {bs : Side → List Binding} {rest : Side → Option Expr} {μ : Mode} :
    Alike z μ (fun i ↦ Parameters.mk (bs i) (rest i)) ↔ Alike z μ bs ∧ Alike z μ rest := by
  simp only [Alike, Tree.view_parameters, Parameters.view, Parameters.mk.injEq, forall_and,
    viewBindings_eq, view?_eq]
  rfl

namespace Spec

variable {g : Grammar}

/-- Formal parameters are read alike. -/
theorem parameters (hg : g.Even z) : Spec z j (fun _ ↦ Script.parameters g) (Reads z j) := by
  unfold Script.parameters
  refine discard_expect fun j1 _ hp1 _ ↦ scope (inScope ?_)
  refine bind (Q := Reads z j) (loop (I := fun bs ↦ Reads z j fun i ↦ (bs i).reverse) ?_
    ((Reads.nil hp1.grows).inScope _) fun j' hd ↦ .const hd _) ?_
  · intro bs j2 _ hbs
    refine token ?_
    split
    · exact pure_inr hbs.parameters
    · exact pure_inr hbs.parameters
    · refine next fun j3 _ hp3 ↦ bind (hg.expr .assignment j3) fun e j4 _ he ↦ ?_
      refine bind (bindTarget he) fun rest j5 _ hrest ↦ pure_inr ?_
      exact hbs.parametersRest (hrest.toReads.after hp3.grows)
    · refine bind (variableDeclaration hg) fun b j3 _ hb ↦ isAt ?_
      exact expectIf fun j4 _ hg4 ↦ pure_inl ((hbs.snoc hb).trans hg4)
  · intro ps j2 _ hps
    exact discard_expect fun j3 _ hp3 _ ↦ inScope (pure ((hps.trans hp3.grows).inScope _))

/-! ### Blocks and bodies -/

/-- Statements are read alike. -/
theorem statements (hg : g.Even z) : Spec z j (fun _ ↦ Script.statements g) (Reads z j) := by
  unfold Script.statements
  refine loop (I := fun items ↦ Reads z j fun i ↦ (items i).reverse) ?_ (.nil (grows_refl j))
    fun j' hd ↦ .const hd _
  intro items j1 _ hitems
  refine token ?_
  split
  · exact pure_inr hitems
  · exact pure_inr hitems
  · exact inScope (bind (hg.stmt _) fun s j2 _ hs ↦
      pure_inl (hitems.snoc (hs.after (grows_refl _))))

end Spec

/-- Both sides have read a list of statements with the offset of its end. -/
structure ReadsBlock (z : Respacing) (j : Joint) (r : Side → List Stmt × Nat) (j' : Joint) : Prop where
  reads : Reads z j (fun i ↦ (r i).1) j'
  ended : j'.dirty = false → Ended z (fun i ↦ (r i).2) (j'.last z)

/-- Both sides have read a function; where it ends is known. -/
structure ReadsFunction (z : Respacing) (j : Joint) (start : Side → Nat) (f : Side → Function)
    (j' : Joint) : Prop extends Reads z j f j' where
  start : ∀ i, (f i).span.start = some (start i)
  ended : j'.dirty = false → Ended z (fun i ↦ (f i).span.stop) (j'.last z)

theorem ReadsFunction.inScope {start : Side → Nat} {f : Side → Function}
    (h : ReadsFunction z j start f j') (scope : Scope) :
    ReadsFunction z j start f { j' with scope := scope } :=
  ⟨h.toReads.inScope scope, h.start, h.ended⟩

theorem ReadsFunction.after {start : Side → Nat} {f : Side → Function}
    (h : ReadsFunction z k start f j') (hg : Grows j k) : ReadsFunction z j start f j' :=
  ⟨h.toReads.after hg, h.start, h.ended⟩

/-- A function is an expression. -/
theorem ReadsFunction.expr {start : Side → Nat} {f : Side → Function}
    (h : ReadsFunction z k start f j') (hg : Grows j k)
    (hstart : j'.dirty = false → Between z j j' fun i ↦ some (start i)) :
    ReadsExpr z j (fun i ↦ .function (f i)) j' := by
  refine .closed ((h.toReads.after hg).node (fun f ↦ .function f) (fun v i ↦ ?_) fun i ↦ ?_)
    (fun i ↦ ?_) rfl (fun hd ↦ ?_) h.ended
  · simp [Expr.view]
  · simp [Tree.entries, Expr.occurrences]
  · simp only [Expr.endsExactly]
  · simpa only [Expr.start, Expr.span, h.start] using hstart hd

/-- A function is known from its parameters and its body. -/
theorem ReadsBlock.function {r : Side → List Stmt × Nat} {ps : Side → Parameters}
    (h : ReadsBlock z j' r j'') (hps : Reads z j ps j') {start : Side → Nat} (name : Option Bytes)
    (isAsync isGenerator : Bool) :
    ReadsFunction z j start
      (fun i ↦ .mk ⟨start i, (r i).2⟩ name isAsync isGenerator (ps i) (r i).1) j'' := by
  refine ⟨(hps.pair h.reads).node (fun p ↦ .mk default name isAsync isGenerator p.1 p.2)
    (fun v i ↦ ?_) fun i ↦ ?_, fun _ ↦ rfl, h.ended⟩
  · simp [Function.view]
  · simp [Tree.entries, Function.occurrences]

namespace Spec

variable {g : Grammar}

/-- A block is read alike. -/
theorem block (hg : g.Even z) : Spec z j (fun _ ↦ Script.block g) (ReadsBlock z j) := by
  unfold Script.block
  refine discard_expect fun j1 _ hp1 _ ↦ bind (statements hg) fun items j2 hs2 hitems ↦ ?_
  refine expect fun j3 _ hp3 ht3 ↦ pure ⟨(hitems.after hp1.grows).trans hp3.grows, fun hd ↦ ?_⟩
  exact hs2.ended hp3 (by rw [ht3 hd]; rfl) (by decide)

/-- A scope is opened. -/
theorem pushScope {β : Type} {R : (Side → β) → Joint → Prop} {f : Side → Unit → Parse β}
    {scope : Scope} (h : Spec z { j with scope := scope } (fun i ↦ f i ()) R) :
    Spec z j (fun i ↦ (modify fun s ↦ { s with scope := scope, outer := s.scope :: s.outer }) >>= f i)
      R := by
  refine write (a := fun _ ↦ ()) (g := fun _ s ↦ { s with scope := scope, outer := s.scope :: s.outer })
    (fun _ _ ↦ rfl) (fun s hs ↦ ?_) h
  obtain ⟨outer, houter⟩ := hs.level.outer
  refine ⟨hs.holds.inScope _, hs.level.source, fun _ ↦ rfl, ⟨j.scope :: outer, fun i ↦ ?_⟩,
    hs.level.stops, hs.level.stopped, hs.level.budget⟩
  dsimp only
  rw [hs.level.scope, houter]

/-- The state after a scope has been closed. -/
def popped (s : ParserState) : ParserState :=
  match s.outer with
  | scope :: outer => { s with scope := scope, outer := outer }
  | [] => s

/-- Leaving a scope keeps twins, for some scope to return to. -/
theorem exists_popped {s : Side → ParserState} (hs : Twin z j s) :
    ∃ scope, Twin z { j with scope := scope } fun i ↦ popped (s i) := by
  obtain ⟨outer, houter⟩ := hs.level.outer
  simp only [popped, houter]
  cases outer with
  | nil => exact ⟨j.scope, hs⟩
  | cons scope outer =>
    exact ⟨scope, hs.holds.inScope _, hs.level.source, fun _ ↦ rfl, ⟨outer, fun _ ↦ rfl⟩,
      hs.level.stops, hs.level.stopped, hs.level.budget⟩

/-- A scope is closed. -/
theorem popScope {β : Type} {R : (Side → β) → Joint → Prop} {f : Side → Unit → Parse β}
    (h : ∀ scope, Spec z { j with scope := scope } (fun i ↦ f i ()) R) :
    Spec z j (fun i ↦ modify popped >>= f i) R := by
  intro s hs
  obtain ⟨scope, htwin⟩ := exists_popped hs
  exact h scope _ htwin

/-- **Bodies.** The scope of a body is opened and closed on both sides. -/
theorem functionBlock (hg : g.Even z) {isAsync allowAwait allowYield : Bool} :
    Spec z j (fun _ ↦ Script.functionBlock g isAsync allowAwait allowYield) (ReadsBlock z j) := by
  unfold Script.functionBlock
  refine pushScope ?_
  refine bind (block hg) fun r j1 _ hr ↦ popScope fun scope ↦ pure ?_
  exact ⟨(hr.reads.after (grows_refl j)).inScope _, hr.ended⟩

/-! ### Functions -/

/-- A method is read alike. -/
theorem method (hg : g.Even z) {start : Side → Nat} {kind : PropertyKind}
    {isGenerator isAsync : Bool} :
    Spec z j (fun i ↦ Script.method g (start i) kind isGenerator isAsync)
      (ReadsFunction z j start) := by
  unfold Script.method
  refine here (withReserved ?_ fun f j' scope hf ↦ hf.inScope scope)
  refine bind (parameters hg) fun ps j1 _ hps ↦ ?_
  have hbody : ∀ j2, Grows j1 j2 → Spec z j2 (fun i ↦ do
      let r ← Script.functionBlock g isAsync isAsync isGenerator
      return Function.mk ⟨start i, r.2⟩ none isAsync isGenerator (ps i) r.1)
      (ReadsFunction z j start) := by
    intro j2 hg2
    refine bind (functionBlock hg) fun r j3 _ hr ↦ pure ?_
    exact (hr.function ((hps.after (grows_refl j)).trans hg2) none isAsync isGenerator)
  have hnoted : Spec z { j1 with dirty := true } (fun i ↦ do
      let r ← Script.functionBlock g isAsync isAsync isGenerator
      return Function.mk ⟨start i, r.2⟩ none isAsync isGenerator (ps i) r.1)
      (ReadsFunction z j start) := hbody _ (grows_of_dirty rfl)
  -- An accessor with another number of parameters is reported.
  obtain ⟨bs, rest, rfl⟩ := exists_parameters ps
  obtain ⟨hbs, hrest⟩ := alike_parameters.1 (hps.alike .shape trivial)
  cases kind with
  | getter =>
    obtain rfl | ⟨b, bs, rfl, -⟩ := hbs.list
    · obtain rfl | ⟨r, rfl, -⟩ := hrest.option
      · exact hbody j1 (grows_refl _)
      · exact note hnoted
    · exact note hnoted
  | setter =>
    obtain rfl | ⟨b, bs, rfl, -, hbs⟩ := hbs.list
    · exact note hnoted
    obtain rfl | ⟨b', bs, rfl, -⟩ := hbs.list
    · obtain rfl | ⟨r, rfl, -⟩ := hrest.option
      · exact hbody j1 (grows_refl _)
      · exact note hnoted
    · exact note hnoted
  | value | method => exact hbody j1 (grows_refl _)

/-- The name of a function or class. -/
theorem declaredName {required : Bool} :
    Spec z j (fun _ ↦ Script.declaredName required) fun r j' ↦
      (∃ name, r = fun _ ↦ name) ∧ Grows j j' := by
  unfold Script.declaredName
  refine bindable (isAt ?_)
  refine choice (fun _ ↦ ?_) fun _ ↦ ?_
  · refine lexeme fun x hx ↦ next fun j1 _ hp ↦ pure ⟨?_, (grows_bound j).trans hp.grows⟩
    obtain ⟨name, hname⟩ := hx.spelt.name
    exact ⟨some name, by simp only [hname]⟩
  · refine choice (fun _ ↦ ?_) fun _ ↦ pure ⟨⟨none, rfl⟩, grows_bound j⟩
    exact discard_expect fun j1 _ hp _ ↦ pure ⟨⟨none, rfl⟩, (grows_bound j).trans hp.grows⟩

/-- A function is read alike, from where its name is passed. -/
theorem function (hg : g.Even z) {declared isAsync : Bool} {start : Side → Nat} :
    Spec z j (fun i ↦ Script.function g declared isAsync (start i)) fun f j' ↦
      ∃ k, Passed j k ∧ ReadsFunction z k start f j' := by
  unfold Script.function
  refine discard_expect fun j1 _ hp1 _ ↦ Spec.mono (Q := ReadsFunction z j1 start) ?_
    fun f j' _ hf ↦ ⟨j1, hp1, hf⟩
  refine isAt ?_
  generalize (j1.token == Token.times) = isGenerator
  have hbody : ∀ name j2, Grows j1 j2 → Spec z j2 (fun i ↦ do
      let list ← Script.parameters g
      let r ← Script.functionBlock g isAsync isAsync isGenerator
      return Function.mk ⟨start i, r.2⟩ name isAsync isGenerator list r.1)
      (ReadsFunction z j1 start) := by
    intro name j2 hg2
    refine bind (parameters hg) fun ps j3 _ hps ↦ bind (functionBlock hg) fun r j4 _ hr ↦ pure ?_
    exact hr.function (hps.after hg2) name isAsync isGenerator
  dsimp only
  refine nextIf fun j2 _ hg2 ↦ ?_
  cases declared with
  | true =>
    simp only [if_true, pure_bind]
    refine bind declaredName ?_
    rintro _ j3 - ⟨⟨name, rfl⟩, hg3⟩
    refine withReserved ?_ fun f j' scope hf ↦ hf.inScope scope
    exact hbody _ _ (hg2.trans hg3)
  | false =>
    simp only [Bool.false_eq_true, if_false, pure_bind]
    refine withReserved ?_ fun f j' scope hf ↦ hf.inScope scope
    refine bind declaredName ?_
    rintro _ j3 - ⟨⟨name, rfl⟩, hg3⟩
    exact hbody _ _ (hg2.trans hg3)

/-- The function behind `async`, or nothing but an error that peeking may find. -/
theorem asyncFunction? (hg : g.Even z) {declared : Bool} :
    Spec z j (fun _ ↦ Script.asyncFunction? g declared) fun r j' ↦
      (∃ f : Side → Function, r = (fun i ↦ some (f i)) ∧ ReadsExpr z j (fun i ↦ .function (f i)) j') ∨
        r = (fun _ ↦ none) ∧ ∃ dirty, (dirty = false → j.dirty = false) ∧
          j' = { j with dirty := dirty } := by
  unfold Script.asyncFunction?
  refine peek fun t dirty hdirty ↦ of_sound fun hs ↦ ?_
  refine choice (fun _ ↦ ?_) fun _ ↦ pure (.inr ⟨rfl, dirty, hdirty, rfl⟩)
  refine here (next fun j1 hs1 hp1 ↦ bind (function hg) ?_)
  rintro f j2 hs2 ⟨k, hk, hf⟩
  refine pure (.inl ⟨f, rfl, ?_⟩)
  have hexpr := hf.expr (hp1.grows.trans hk.grows) fun hd ↦
    hs.between hp1 hs2 (hk.grows.trans hf.grows) hd
  exact hexpr.after hs (grows_dirty hdirty)

end Spec

/-! ### Arrow functions -/

/-- Both sides have read the body of an arrow function with the offset of its end. -/
structure ReadsArrowBody (z : Respacing) (j : Joint) (r : Side → ArrowBody × Nat) (j' : Joint) :
    Prop where
  reads : Reads z j (fun i ↦ (r i).1) j'
  exact : j'.dirty = false → ∃ b, (∀ i, (r i).1.endsExactly (z.source i) = b) ∧
    (b = true → Ended z (fun i ↦ (r i).2) (j'.last z))

/-- An expression that was read is the body of an arrow function. -/
theorem ReadsExpr.arrowBody {e : Side → Expr} (h : ReadsExpr z j e j') :
    ReadsArrowBody z j (fun i ↦ (.expression (e i), (e i).stop)) j' := by
  refine ⟨h.toReads.node (fun e ↦ .expression e) (fun v i ↦ ?_) fun i ↦ ?_, fun hd ↦ ?_⟩
  · simp [ArrowBody.view]
  · simp [Tree.entries, ArrowBody.occurrences]
  · simpa only [ArrowBody.endsExactly] using (h.clear hd).exact

/-- A block that was read is the body of an arrow function. -/
theorem ReadsBlock.arrowBody {r : Side → List Stmt × Nat} (h : ReadsBlock z j r j') :
    ReadsArrowBody z j (fun i ↦ (.block (r i).1, (r i).2)) j' := by
  refine ⟨h.reads.node (fun body ↦ .block body) (fun v i ↦ ?_) fun i ↦ ?_, fun hd ↦
    ⟨true, fun i ↦ ?_, fun _ ↦ h.ended hd⟩⟩
  · simp [ArrowBody.view]
  · simp [Tree.entries, ArrowBody.occurrences]
  · simp only [ArrowBody.endsExactly]

namespace Spec

variable {g : Grammar}

/-- The body of an arrow function is read alike. -/
theorem arrowBody (hg : g.Even z) {isAsync : Bool} :
    Spec z j (fun _ ↦ Script.arrowBody g isAsync) (ReadsArrowBody z j) := by
  unfold Script.arrowBody
  refine isAt (choice (fun _ ↦ ?_) fun _ ↦ scope (choice (fun _ ↦ ?_) fun _ ↦ ?_))
  · exact bind (functionBlock hg) fun r j1 _ hr ↦ pure hr.arrowBody
  · refine inScope (bind (hg.expr .assignment _) fun e j1 _ he ↦ inScope (pure ?_))
    exact (he.unscope.inScope _).arrowBody
  · exact bind (hg.expr .assignment j) fun e j1 _ he ↦ pure he.arrowBody

/-- **Arrow functions.** The parameters have been read from `k` on. -/
theorem arrowFunction (hg : g.Even z) (hs : Sound z k) {ps : Side → Parameters}
    (hps : Reads z k ps j) {isAsync : Bool} :
    Spec z j (fun i ↦ Script.arrowFunction g (z.offset i k.place) (ps i) isAsync)
      (ReadsExpr z k) := by
  unfold Script.arrowFunction
  refine of_sound fun hj ↦ discard_expect fun j1 _ hp1 _ ↦ bind (arrowBody hg) fun r j2 hs2 hr ↦ pure ?_
  refine ⟨(hps.pair (hr.reads.after hp1.grows)).node (fun p ↦ .arrow default isAsync p.1 p.2)
    (fun v i ↦ ?_) fun i ↦ ?_, fun hd ↦ ⟨?_, ?_, nofun, rfl⟩⟩
  · simp [Expr.view]
  · simp [Tree.entries, Expr.occurrences]
  · exact hs.between_of_grows hps.grows hj hp1 hs2 hr.reads.grows hd
  · obtain ⟨b, hb, hended⟩ := hr.exact hd
    exact ⟨b, fun i ↦ by simpa only [Expr.endsExactly] using hb i, hended⟩

/-- An arrow function behind `async` is read alike, from the place of that word on. -/
theorem asyncArrow (hg : g.Even z) (hk : Sound z k) (hgrows : Grows k j) :
    Spec z j (fun i ↦ Script.asyncArrow g (z.offset i k.place)) (ReadsExpr z k) := by
  unfold Script.asyncArrow
  refine scope (withReserved (bindable (of_sound fun hs ↦ isAt ?_)) fun e j' scope he ↦ he.inScope scope)
  have hbound : Grows j (bound { j with
    scope := { j.scope with allowAwait := true, allowYield := j.scope.allowYield } }) := grows_bound _
  refine choice (fun ht ↦ ?_) fun _ ↦ ?_
  · refine bind (identifier (by rw [beq_iff_eq.1 ht]; rfl)) fun name j1 hs1 hname ↦ ?_
    have hps := ((Reads.nil (hgrows.trans hbound)).snoc hname.toReads.bindingAlone).parameters
    exact arrowFunction hg hk hps
  · refine token (unexpected (next fun j1 _ hp1 ↦ badFrom ?_))
    exact dirty_of_passed hp1 rfl

end Spec

end ColonGap.Script
