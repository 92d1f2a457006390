import ColonGap.Proofs.Targets

/-!
# Literals re-read as binding targets

Binding targets are names and patterns of names. A pattern that has been re-read for an assignment
before is re-read once more for a binding, and the items of a parenthesised list are re-read as
formal parameters.
-/

namespace ColonGap.Script

open Piece

variable {z : Respacing} {j j' j'' k : Joint}

/-! ### Binding targets -/

/-- Re-reading for a binding refuses in the way that re-reading in general asks for. -/
theorem refuses_bindTarget : Refuses (bindTarget false) := by
  intro e he
  cases e with
  | identifier | member | privateMember | index => simp [Expr.isTargetable] at he
  | array | object | arrayPattern | objectPattern => simp [Expr.isTargetable] at he
  | assignment => exact ⟨_, _, _, by simp only [bindTarget]; rfl⟩
  | _ => exact ⟨_, _, _, rfl⟩

theorem bindTarget_of_isAccess {e : Expr} (h : e.isAccess = true) (withDefault : Bool) :
    bindTarget withDefault e = refuse e .badBindingTarget := by
  cases e <;> first | rfl | simp [Expr.isAccess] at h

theorem bindTarget_of_isRefused {e : Expr} (h : e.isRefused = true) (withDefault : Bool) :
    bindTarget withDefault e = refuse e .badBindingTarget := by
  cases e <;> first | rfl | simp [Expr.isRefused] at h

theorem bindingRest_of_isAccess {e : Expr} (h : e.isAccess = true) :
    bindingRest e = refuse e .badBindingRest := by
  cases e <;> first | rfl | simp [Expr.isAccess] at h

theorem bindingRest_of_isRefused {e : Expr} (h : e.isRefused = true) :
    bindingRest e = refuse e .badBindingRest := by
  cases e <;> first | rfl | simp [Expr.isRefused] at h

/-- The rest of a binding pattern is re-read alike on both sides. -/
theorem rereads_bindingRest (n : Nat) : Rereads z bindingRest n := by
  intro e j _ hshape _
  cases hshape.target with
  | identifier h =>
    subst h
    exact .pure (.refl hshape)
  | assignment h | array h | object h | arrayPattern h | objectPattern h =>
    subst h
    exact .refuse
  | access h =>
    simp only [bindingRest_of_isAccess (h _)]
    exact .refuse
  | refused h =>
    simp only [bindingRest_of_isRefused (h _)]
    exact .refuse

/-- Two re-readings one after the other. -/
theorem Recast.consList {α β : Type} [Tree α] [Tree β] {x : Side → α} {x' : Side → β}
    {xs : Side → List α} {xs' : Side → List β} (hx : Recast z j x x' j')
    (hxs : Recast z j' xs xs' j'') :
    Recast z j (fun i ↦ x i :: xs i) (fun i ↦ x' i :: xs' i) j'' where
  state := by rw [hxs.state, hx.state]
  clean hd := hx.clean (hxs.clean hd)
  shape := alike_cons.2 ⟨hx.shape, hxs.shape⟩
  alike hd μ hμ := by
    rw [alike_cons] at hμ
    exact alike_cons.2 ⟨hx.alike (hxs.clean hd) μ hμ.1, hxs.alike hd μ hμ.2⟩
  entries hd i := by
    simp only [Tree.entries_cons, hx.entries (hxs.clean hd) i, hxs.entries hd i]

/-- The elements of an array pattern are re-read alike if targets of their size are. -/
theorem Spec.rebindElements {n : Nat} (htarget : Rereads z (bindTarget false) n) :
    ∀ {els : Side → List (Option Expr)} {j : Joint}, sizeOf (els .old) ≤ n → Alike z .shape els →
      (j.dirty = false → Alike z .commas els) →
      Spec z j (fun i ↦ Script.rebindElements (els i)) (Recast z j els) := by
  intro els j hn hshape hcommas
  induction hlength : (els .old).length generalizing els j with
  | zero =>
    obtain rfl | ⟨x, xs, rfl, -⟩ := hshape.list
    · exact pure (.refl hshape)
    · simp at hlength
  | succ m ih =>
    obtain rfl | ⟨x, xs, rfl, hx, hxs⟩ := hshape.list
    · simp at hlength
    simp only [List.length_cons, Nat.add_right_cancel_iff] at hlength
    simp only [List.cons.sizeOf_spec] at hn
    simp only [alike_cons] at hcommas
    obtain rfl | ⟨e, rfl, he⟩ := hx.option
    · simp only [Script.rebindElements]
      refine bind (ih (by omega) hxs (fun hd ↦ (hcommas hd).2) hlength) ?_
      intro r j1 _ hr
      exact pure (.consList (.refl hx) hr)
    · simp only [Script.rebindElements]
      simp only [Option.some.sizeOf_spec] at hn
      simp only [alike_some] at hcommas
      refine bind (htarget e j (by omega) he fun hd ↦ (hcommas hd).1) ?_
      intro e' j1 _ he'
      refine bind (ih (by omega) hxs (fun hd ↦ (hcommas (he'.clean hd)).2) hlength) ?_
      intro r j2 _ hr
      exact pure (.consList he'.toRecast.some hr)

/-- The properties of an object pattern are re-read alike if targets of their size are. -/
theorem Spec.rebindProperties {n : Nat} (htarget : Rereads z (bindTarget true) n) :
    ∀ {ps : Side → List Property} {j : Joint}, sizeOf (ps .old) ≤ n → Alike z .shape ps →
      (j.dirty = false → Alike z .commas ps) →
      Spec z j (fun i ↦ Script.rebindProperties (ps i)) (Recast z j ps) := by
  intro ps j hn hshape hcommas
  induction hlength : (ps .old).length generalizing ps j with
  | zero =>
    obtain rfl | ⟨x, xs, rfl, -⟩ := hshape.list
    · exact pure (.refl hshape)
    · simp at hlength
  | succ m ih =>
    obtain rfl | ⟨p, xs, rfl, hp, hxs⟩ := hshape.list
    · simp at hlength
    simp only [List.length_cons, Nat.add_right_cancel_iff] at hlength
    simp only [List.cons.sizeOf_spec] at hn
    simp only [alike_cons] at hcommas
    cases hp.property with
    | @keyed kind computed key value h =>
      subst h
      simp only [Property.keyed.sizeOf_spec] at hn
      rw [alike_keyed] at hp
      simp only [alike_keyed] at hcommas
      simp only [Script.rebindProperties]
      refine bind (htarget value j (by omega) hp.2 fun hd ↦ (hcommas hd).1.2) ?_
      intro value' j1 _ hvalue
      refine bind (ih (by omega) hxs (fun hd ↦ (hcommas (hvalue.clean hd)).2) hlength) ?_
      intro r j2 _ hr
      exact pure (.consList (hvalue.keyed hp.1) hr)
    | short h | spread h =>
      subst h
      simp only [Script.rebindProperties]
      refine bind (ih (by omega) hxs (fun hd ↦ (hcommas hd).2) hlength) ?_
      intro r j1 _ hr
      exact pure (.consList (.refl hp) hr)

/-- A rest element that is re-read. -/
structure RecastRest (z : Respacing) (j : Joint) (a b : Side → Option Expr) (j' : Joint) : Prop
    extends Recast z j a b j' where
  kept : j'.dirty = false → ∀ i sp, (View.commas (z.source i)).markOfRest sp (b i)
    = (View.commas (z.source i)).markOfRest sp (a i)

/-- An expression that is re-read may be re-read as a rest. -/
theorem RecastExpr.rest {e e' : Side → Expr} (h : RecastExpr z j e e' j') :
    RecastRest z j (fun i ↦ some (e i)) (fun i ↦ some (e' i)) j' := by
  refine ⟨h.toRecast.some, fun hd i sp ↦ ?_⟩
  have hstop : (e' i).stop = (e i).stop := congrArg Span.stop (h.kept hd i).span
  simp only [View.markOfRest, View.commas, (h.kept hd i).isTargetable, hstop]

/-- The rest of a pattern is re-read alike if targets of its size are. -/
theorem Spec.rebindRest {n : Nat} (htarget : Rereads z (bindTarget false) n)
    {rest : Side → Option Expr} (hn : sizeOf (rest .old) ≤ n) (hshape : Alike z .shape rest)
    (hcommas : j.dirty = false → Alike z .commas rest) :
    Spec z j (fun i ↦ Script.rebindRest (rest i)) (RecastRest z j rest) := by
  obtain rfl | ⟨e, rfl, he⟩ := hshape.option
  · exact pure ⟨.refl hshape, fun _ _ _ ↦ rfl⟩
  · simp only [alike_some] at hcommas
    simp only [Option.some.sizeOf_spec] at hn
    simp only [Script.rebindRest]
    refine bind (htarget e j (by omega) he hcommas) ?_
    intro e' j1 _ he'
    exact pure he'.rest

/-- A pattern of elements and a rest that were re-read is an array pattern that was re-read. -/
theorem Recast.arrayPattern {sp : Side → Span} {els els' : Side → List (Option Expr)}
    {rest rest' : Side → Option Expr} (hels : Recast z j els els' j')
    (hrest : RecastRest z j' rest rest' j'') :
    RecastExpr z j (fun i ↦ .arrayPattern (sp i) (els i) (rest i))
      (fun i ↦ .arrayPattern (sp i) (els' i) (rest' i)) j'' where
  state := by rw [hrest.state, hels.state]
  clean hd := hels.clean (hrest.clean hd)
  shape := by
    refine alike_arrayPattern.2 ⟨fun i ↦ ?_, hels.shape, hrest.shape⟩
    cases rest' i <;> cases rest' .old <;> rfl
  alike hd μ hμ := by
    obtain ⟨hmark, hels', hrest'⟩ := alike_arrayPattern.1 hμ
    refine alike_arrayPattern.2 ⟨fun i ↦ ?_, hels.alike (hrest.clean hd) μ hels',
      hrest.alike hd μ hrest'⟩
    cases μ with
    | shape | bare => cases rest' i <;> cases rest' .old <;> rfl
    | commas => exact (hrest.kept hd i _).trans ((hmark i).trans (hrest.kept hd .old _).symm)
  entries hd i := by
    have hels' := hels.entries (hrest.clean hd) i
    have hrest' := hrest.entries hd i
    simp only [Tree.entries_expr, Expr.occurrences, entriesOf_append, Tree.entries_ofElements,
      Tree.entries_ofRest]
    rw [hels', hrest']
  kept _ _ := ⟨rfl, by simp only [Expr.endsExactly], rfl, rfl, rfl⟩

/-- A pattern of properties and a rest that were re-read is an object pattern that was re-read. -/
theorem Recast.objectPattern {sp : Side → Span} {ps ps' : Side → List Property}
    {rest rest' : Side → Option Expr} (hps : Recast z j ps ps' j')
    (hrest : Recast z j' rest rest' j'') :
    RecastExpr z j (fun i ↦ .objectPattern (sp i) (ps i) (rest i))
      (fun i ↦ .objectPattern (sp i) (ps' i) (rest' i)) j'' where
  state := by rw [hrest.state, hps.state]
  clean hd := hps.clean (hrest.clean hd)
  shape := alike_objectPattern.2 ⟨hps.shape, hrest.shape⟩
  alike hd μ hμ := by
    obtain ⟨hps', hrest'⟩ := alike_objectPattern.1 hμ
    exact alike_objectPattern.2 ⟨hps.alike (hrest.clean hd) μ hps', hrest.alike hd μ hrest'⟩
  entries hd i := by
    have hps' := hps.entries (hrest.clean hd) i
    have hrest' := hrest.entries hd i
    simp only [Tree.entries_expr, Expr.occurrences, entriesOf_append, Tree.entries_inPattern,
      Tree.entries_ofRest]
    rw [hps', hrest']
  kept _ _ := ⟨rfl, by simp only [Expr.endsExactly], rfl, rfl, rfl⟩

/-- **Binding targets.** -/
theorem rereads_bindTarget (n : Nat) : ∀ withDefault, Rereads z (bindTarget withDefault) n := by
  induction n with
  | zero => exact fun _ _ _ hn ↦ absurd hn (Nat.not_lt_zero _)
  | succ n ih =>
    intro withDefault e j hn hshape hcommas
    cases hshape.target with
    | @assignment sp op left right h =>
      subst h
      simp only [Expr.assignment.sizeOf_spec] at hn
      rw [alike_assignment] at hshape
      simp only [alike_assignment] at hcommas
      simp only [bindTarget]
      split
      · refine .bind (ih false left j (by omega) hshape.1 fun hd ↦ (hcommas hd).1) ?_
        intro left' j1 _ hleft
        exact .pure (hleft.assignment hshape.2)
      · exact .note (.pure .bad)
    | @array sp els h =>
      subst h
      simp only [Expr.array.sizeOf_spec] at hn
      simp only [alike_array] at hcommas
      simp only [bindTarget, bindElements_eq]
      refine .bind (.rereadElements (ih false) refuses_bindTarget (rereads_assignTarget n true)
        (by omega) (alike_array.1 hshape).2 fun hd ↦ ⟨(hcommas hd).2, (hcommas hd).1⟩) ?_
      intro r j1 _ hr
      rcases hr.shape.option with rfl | ⟨p, rfl, -⟩
      · exact .pure (.bad_of_dirty hr.toRecast (hr.broken rfl))
      · exact .pure (@RecastElements.pattern z _ _ _ _ (fun i ↦ (p i).1) (fun i ↦ (p i).2) hr)
    | @object sp ps h =>
      subst h
      simp only [Expr.object.sizeOf_spec] at hn
      simp only [alike_object] at hshape hcommas
      simp only [bindTarget, bindProperties_eq]
      refine .bind (.rereadProperties (ih true) (rereads_bindingRest n) (by omega) hshape
        hcommas) ?_
      intro r j1 _ hr
      rcases hr.shape.option with rfl | ⟨p, rfl, -⟩
      · exact .pure (.bad_of_dirty hr.toRecast (hr.broken rfl))
      · exact .pure (@RecastProperties.pattern z _ _ _ _ (fun i ↦ (p i).1) (fun i ↦ (p i).2) hr)
    | @arrayPattern sp els rest h =>
      subst h
      simp only [Expr.arrayPattern.sizeOf_spec] at hn
      rw [alike_arrayPattern] at hshape
      simp only [alike_arrayPattern] at hcommas
      simp only [bindTarget]
      refine .bind (.rebindElements (ih false) (by omega) hshape.2.1 fun hd ↦ (hcommas hd).2.1) ?_
      intro els' j1 _ hels
      refine .bind (.rebindRest (ih false) (by omega) hshape.2.2 fun hd ↦
        (hcommas (hels.clean hd)).2.2) ?_
      intro rest' j2 _ hrest
      exact .pure (hels.arrayPattern hrest)
    | @objectPattern sp ps rest h =>
      subst h
      simp only [Expr.objectPattern.sizeOf_spec] at hn
      rw [alike_objectPattern] at hshape
      simp only [alike_objectPattern] at hcommas
      simp only [bindTarget]
      refine .bind (.rebindProperties (ih true) (by omega) hshape.1 fun hd ↦ (hcommas hd).1) ?_
      intro ps' j1 _ hps
      obtain rfl | ⟨rest, rfl, hrest⟩ := hshape.2.option
      · exact .pure (hps.objectPattern (.refl hshape.2))
      · simp only [Option.some.sizeOf_spec] at hn
        simp only [alike_some] at hcommas
        refine .bind (rereads_bindingRest n rest j1 (by omega) hrest fun hd ↦
          (hcommas (hps.clean hd)).2) ?_
        intro rest' j2 _ hrest'
        exact .pure (hps.objectPattern hrest'.toRecast.some)
    | identifier h =>
      subst h
      simp only [bindTarget]
      refine .scope ?_
      split
      · exact .refuse
      · exact .pure (.refl hshape)
    | access h =>
      simp only [bindTarget_of_isAccess (h _)]
      exact .refuse
    | refused h =>
      simp only [bindTarget_of_isRefused (h _)]
      exact .refuse


/-! ### What has been read is re-read -/

theorem Spec.assignTarget {e : Side → Expr} {withDefault : Bool} (he : ReadsExpr z k e j) :
    Spec z j (fun i ↦ Script.assignTarget withDefault (e i)) (ReadsExpr z k) :=
  (rereads_assignTarget _ withDefault e j (Nat.lt_succ_self _) (he.alike .shape trivial)
    fun hd ↦ he.alike .commas hd).mono fun _ _ _ h ↦ h.readsExpr he

theorem Spec.bindTarget {e : Side → Expr} {withDefault : Bool} (he : ReadsExpr z k e j) :
    Spec z j (fun i ↦ Script.bindTarget withDefault (e i)) (ReadsExpr z k) :=
  (rereads_bindTarget _ withDefault e j (Nat.lt_succ_self _) (he.alike .shape trivial)
    fun hd ↦ he.alike .commas hd).mono fun _ _ _ h ↦ h.readsExpr he

/-! ### Parameters -/

section

variable {μ : Mode} {target : Side → Expr} {initializer : Side → Option Expr}

/-- Bindings look alike exactly if their targets and their initializers do. -/
theorem alike_binding :
    Alike z μ (fun i ↦ Binding.mk (target i) (initializer i)) ↔
      Alike z μ target ∧ Alike z μ initializer := by
  simp only [Alike, Tree.view_binding, Binding.view, Binding.mk.injEq, forall_and, view?_eq]
  rfl

theorem entries_binding (target : Expr) (initializer : Option Expr) :
    Tree.entries (Binding.mk target initializer)
      = Tree.entries target ++ Tree.entries initializer := by
  rw [← Tree.entries_in?]
  simp only [Tree.entries, Binding.occurrences, entriesOf_append]

end

/-- An expression that is no assignment is a parameter without an initializer. -/
theorem asParameter_of_not {e : Expr} (h : ∀ sp op l r, e ≠ .assignment sp op l r) :
    asParameter e = (do return .mk (← bindTarget false e) none) := by
  cases e with
  | assignment sp op l r => exact absurd rfl (h sp op l r)
  | _ => rfl

/-- An expression is re-read alike as a formal parameter. -/
theorem Spec.asParameter {e : Side → Expr} (hshape : Alike z .shape e)
    (hcommas : j.dirty = false → Alike z .commas e) :
    Spec z j (fun i ↦ Script.asParameter (e i)) (Recast z j e) := by
  have hplain : (∀ i sp op l r, e i ≠ .assignment sp op l r) →
      Spec z j (fun i ↦ Script.asParameter (e i)) (Recast z j e) := by
    intro hne
    simp only [asParameter_of_not (hne _)]
    refine bind (rereads_bindTarget _ false e j (Nat.lt_succ_self _) hshape hcommas) ?_
    intro e' j1 _ he
    refine pure ⟨he.state, he.clean, alike_binding.2 ⟨he.shape, fun _ ↦ rfl⟩, fun hd μ hμ ↦ ?_,
      fun hd i ↦ ?_⟩
    · exact alike_binding.2 ⟨he.alike hd μ hμ, fun _ ↦ rfl⟩
    · rw [entries_binding, he.entries hd i]
      exact List.append_nil _
  cases hshape.target with
  | @assignment sp op left right h =>
    subst h
    rw [alike_assignment] at hshape
    simp only [alike_assignment] at hcommas
    simp only [Script.asParameter]
    split
    · refine bind (rereads_bindTarget _ false left j (Nat.lt_succ_self _) hshape.1
        fun hd ↦ (hcommas hd).1) ?_
      intro left' j1 _ he
      refine pure ⟨he.state, he.clean, alike_binding.2 ⟨he.shape, alike_some.2 hshape.2⟩,
        fun hd μ hμ ↦ ?_, fun hd i ↦ ?_⟩
      · rw [alike_assignment] at hμ
        exact alike_binding.2 ⟨he.alike hd μ hμ.1, alike_some.2 hμ.2⟩
      · have hleft := he.entries hd i
        rw [entries_binding, hleft, Tree.entries_some]
        simp only [Tree.entries_expr, Expr.occurrences, entriesOf_append]
    · exact note (pure (.of_dirty (alike_binding.2 ⟨alike_bad, fun _ ↦ rfl⟩)))
  | array h | object h | arrayPattern h | objectPattern h | identifier h =>
    subst h
    exact hplain fun _ _ _ _ _ heq ↦ by cases heq
  | access h =>
    refine hplain fun i sp op l r heq ↦ ?_
    have hi := h i
    simp [heq, Expr.isAccess] at hi
  | refused h =>
    refine hplain fun i sp op l r heq ↦ ?_
    have hi := h i
    simp [heq, Expr.isRefused] at hi

/-- The items of a list are re-read alike as formal parameters. -/
theorem Spec.mapM_asParameter {items : Side → List Expr} (hshape : Alike z .shape items)
    (hcommas : j.dirty = false → Alike z .commas items) :
    Spec z j (fun i ↦ (items i).mapM Script.asParameter) (Recast z j items) := by
  induction hlength : (items .old).length generalizing items j with
  | zero =>
    obtain rfl | ⟨x, xs, rfl, -⟩ := hshape.list
    · simp only [List.mapM_nil]
      exact pure ⟨rfl, id, fun _ ↦ rfl, fun _ _ _ _ ↦ rfl, fun _ _ ↦ rfl⟩
    · simp at hlength
  | succ m ih =>
    obtain rfl | ⟨x, xs, rfl, hx, hxs⟩ := hshape.list
    · simp at hlength
    simp only [List.length_cons, Nat.add_right_cancel_iff] at hlength
    simp only [alike_cons] at hcommas
    simp only [List.mapM_cons]
    refine bind (asParameter hx fun hd ↦ (hcommas hd).1) ?_
    intro b j1 _ hb
    refine bind (ih hxs (fun hd ↦ (hcommas (hb.clean hd)).2) hlength) ?_
    intro bs j2 _ hbs
    exact pure (hb.consList hbs)

/-- Items that have been read are re-read alike as a list of parameters. -/
theorem Spec.asParameters {items : Side → List Expr} (h : Reads z k items j) :
    Spec z j (fun i ↦ Script.asParameters (items i)) (Reads z k) := by
  unfold Script.asParameters
  refine bind (mapM_asParameter (h.alike .shape trivial) fun hd ↦ h.alike .commas hd) ?_
  intro bs j1 _ hbs
  refine pure ((hbs.reads h).node (fun bs ↦ .mk bs none) (fun v i ↦ ?_) fun i ↦ ?_)
  · simp [Parameters.view]
  · simp [Tree.entries, Parameters.occurrences]

end ColonGap.Script
