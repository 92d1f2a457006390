import ColonGap.Proofs.Recasts

/-!
# Literals re-read as assignment targets

Assignment targets and binding targets are re-read by functions of one form, which differ in what
they do with the parts. So the lists of elements and of entries are dealt with once, for any way to
re-read the parts: `rereadElements` and `rereadProperties` are what both families do with a list.

## Shape decisions

* **Commas.** Whether a comma stands behind the rest element of an array depends on the source and
  on the recorded end of that element, which is not exact in general. The two sides agree on it
  because the arrays that look alike are marked alike. An operand that cannot be a target at all is
  an error on both sides, whatever is found behind it.
* **Induction on the size.** The productions are proved for expressions below a size, so that lists
  can be dealt with apart from the expressions they are part of.
-/

namespace ColonGap.Script

open Piece

variable {z : Respacing} {j j' j'' k : Joint}

/-! ### The re-reading of lists -/

/-- Re-read the elements of an array literal, with `last` for what stands behind `...`. -/
def rereadElements (last : Expr → Parse Expr) (span : Span) :
    List (Option Expr) → Parse (Option (List (Option Expr) × Option Expr))
  | [] => return some ([], none)
  | some (.spread _ inner) :: [] => do
    checkComma inner.stop (span.stop - 1)
    return some ([], some (← last inner))
  | some (.spread place _) :: _ => do
    Parse.note place.start .restNotLast
    return none
  | none :: elements => do
    match ← rereadElements last span elements with
    | some (elements, rest) => return some (none :: elements, rest)
    | none => return none
  | some element :: elements => do
    let element ← assignTarget true element
    match ← rereadElements last span elements with
    | some (elements, rest) => return some (some element :: elements, rest)
    | none => return none

/-- Re-reading elements for an assignment is re-reading elements. -/
theorem assignElements_eq (span : Span) (elements : List (Option Expr)) :
    assignElements span elements = rereadElements (assignTarget false) span elements := by
  induction elements with
  | nil => rfl
  | cons e elements ih =>
    cases e with
    | none =>
      simp only [assignElements, rereadElements]
      rewrite [ih]
      rfl
    | some e =>
      cases e with
      | spread _ _ => cases elements <;> simp only [assignElements, rereadElements]
      | _ =>
        simp only [assignElements, rereadElements]
        rewrite [ih]
        rfl

/-- Re-reading elements for a binding is re-reading elements. -/
theorem bindElements_eq (span : Span) (elements : List (Option Expr)) :
    bindElements span elements = rereadElements (bindTarget false) span elements := by
  induction elements with
  | nil => rfl
  | cons e elements ih =>
    cases e with
    | none =>
      simp only [bindElements, rereadElements]
      rewrite [ih]
      rfl
    | some e =>
      cases e with
      | spread _ _ => cases elements <;> simp only [bindElements, rereadElements]
      | _ =>
        simp only [bindElements, rereadElements]
        rewrite [ih]
        rfl

/-- Re-read the entries of an object literal, with `target` for their values and `last` for what
stands behind `...`; what is no `key: value` entry is refused. -/
def rereadProperties (target last : Expr → Parse Expr) (cause : Cause) :
    List Property → Parse (Option (List Property × Option Expr))
  | [] => return some ([], none)
  | .spread inner :: [] => return some ([], some (← last inner))
  | .spread inner :: _ => do
    Parse.note inner.start .restNotLast
    return none
  | .short span name initializer :: properties => do
    match ← rereadProperties target last cause properties with
    | some (properties, rest) => return some (.short span name initializer :: properties, rest)
    | none => return none
  | .keyed .value computed key value :: properties => do
    let value ← target value
    match ← rereadProperties target last cause properties with
    | some (properties, rest) => return some (.keyed .value computed key value :: properties, rest)
    | none => return none
  | .keyed _ _ key _ :: _ => do
    Parse.note key.start cause
    return none

/-- Re-reading properties for an assignment is re-reading properties. -/
theorem assignProperties_eq (properties : List Property) :
    assignProperties properties
      = rereadProperties (assignTarget true) pure .badDestructuringTarget properties := by
  induction properties with
  | nil => rfl
  | cons p properties ih =>
    cases p with
    | spread _ => cases properties <;> simp only [assignProperties, rereadProperties, pure_bind]
    | short _ _ _ =>
      simp only [assignProperties, rereadProperties]
      rewrite [ih]
      rfl
    | keyed kind _ _ _ =>
      cases kind with
      | value =>
        simp only [assignProperties, rereadProperties]
        rewrite [ih]
        rfl
      | getter | setter | method => simp only [assignProperties, rereadProperties]

/-- Re-reading properties for a binding is re-reading properties. -/
theorem bindProperties_eq (properties : List Property) :
    bindProperties properties
      = rereadProperties (bindTarget true) bindingRest .badBindingTarget properties := by
  induction properties with
  | nil => rfl
  | cons p properties ih =>
    cases p with
    | spread _ => cases properties <;> simp only [bindProperties, rereadProperties]
    | short _ _ _ =>
      simp only [bindProperties, rereadProperties]
      rewrite [ih]
      rfl
    | keyed kind _ _ _ =>
      cases kind with
      | value =>
        simp only [bindProperties, rereadProperties]
        rewrite [ih]
        rfl
      | getter | setter | method => simp only [bindProperties, rereadProperties]


/-! ### Commas behind the rest element -/

/-- A comma stands between two offsets. -/
def hasComma (source : Bytes) (start stop : Nat) : Bool :=
  (Bytes.indexOf? [44] (source.slice start stop)).isSome

theorem Lexer.note_of_isSome {l : Lexer} (h : l.reader.error.isSome = true) (place : Nat)
    (cause : Cause) : l.note place cause = l := by
  obtain ⟨e, he⟩ := Option.isSome_iff_exists.1 h
  simp only [Lexer.note, Reader.note, he]

/-- What looking for a comma does. -/
theorem run_checkComma (start stop : Nat) (s : ParserState) :
    ∃ place, (checkComma start stop).run s
      = if hasComma s.source start stop then (Parse.note place .commaAfterRest).run s
        else ((), s) := by
  unfold hasComma
  cases hcomma : Bytes.indexOf? [44] (s.source.slice start stop) with
  | none =>
    refine ⟨none, ?_⟩
    simp only [checkComma, StateT.run_bind, StateT.run_get, pure_bind, hcomma]
    rfl
  | some i =>
    refine ⟨some (start + i), ?_⟩
    simp only [checkComma, StateT.run_bind, StateT.run_get, pure_bind, hcomma]
    rfl

namespace Spec

variable {β : Type} {R : (Side → β) → Joint → Prop} {start stop : Side → Nat}

/-- A comma is found on both sides or on neither; after an error it does not matter. -/
theorem checkComma {f : Side → Unit → Parse β}
    (hsame : j.dirty = false → ∃ b, ∀ i, hasComma (z.source i) (start i) (stop i) = b)
    (h : ∀ d, (d = false → j.dirty = false ∧
        ∀ i, hasComma (z.source i) (start i) (stop i) = false) →
      Spec z { j with dirty := d } (fun i ↦ f i ()) R) :
    Spec z j (fun i ↦ Script.checkComma (start i) (stop i) >>= f i) R := by
  intro s hs
  choose place hplace using fun i ↦ run_checkComma (start i) (stop i) (s i)
  have hrun : ∀ i, (Script.checkComma (start i) (stop i) >>= f i).run (s i)
      = (if hasComma (z.source i) (start i) (stop i) then
          Parse.note (place i) .commaAfterRest >>= f i else f i ()).run (s i) := by
    intro i
    rw [StateT.run_bind, hplace, hs.level.source]
    split <;> rfl
  cases hd : j.dirty with
  | true =>
    -- A further error changes nothing.
    have hdirty : { j with dirty := true } = j := by rw [← hd]
    have hnote : ∀ i, (if hasComma (z.source i) (start i) (stop i) then
          Parse.note (place i) .commaAfterRest >>= f i else f i ()).run (s i)
        = (f i ()).run (s i) := by
      intro i
      split
      · have herror := hs.holds.paces.error i
        rw [hd] at herror
        have hsame := Lexer.note_of_isSome herror
          ((place i).getD (s i).lexer.reader.offset) .commaAfterRest
        change (f i ()).run { s i with lexer := (s i).lexer.note _ _ } = _
        rw [hsame]
      · rfl
    have hspec := h true (by simp)
    rw [hdirty] at hspec
    simpa only [hrun, hnote] using hspec s hs
  | false =>
    obtain ⟨b, hb⟩ := hsame hd
    cases b with
    | true =>
      have hspec : Spec z j (fun i ↦ Parse.note (place i) .commaAfterRest >>= f i) R :=
        note (h true (by simp))
      simpa only [hrun, hb, if_true] using hspec s hs
    | false =>
      have hspec := h false fun _ ↦ ⟨hd, hb⟩
      rw [← hd] at hspec
      simpa only [hrun, hb, Bool.false_eq_true, if_false] using hspec s hs

/-- Where an error follows in any case, it does not matter whether a comma is found. -/
theorem checkComma_note {place : Side → Option Nat} {cause : Side → Cause} {m : Side → Parse β}
    (h : Spec z { j with dirty := true } m R) :
    Spec z j (fun i ↦ do
      Script.checkComma (start i) (stop i)
      Parse.note (place i) (cause i)
      m i) R := by
  intro s hs
  have hnote : ∀ i, ∃ place' cause', (do
      Script.checkComma (start i) (stop i)
      Parse.note (place i) (cause i)
      m i : Parse β).run (s i) = (Parse.note place' cause' >>= fun _ ↦ m i).run (s i) := by
    intro i
    obtain ⟨first, hfirst⟩ := run_checkComma (start i) (stop i) (s i)
    rw [StateT.run_bind, hfirst]
    split
    · -- The first error is kept.
      refine ⟨first, .commaAfterRest, ?_⟩
      change (m i).run { s i with lexer := ((s i).lexer.note _ _).note _ _ } = (m i).run _
      rw [Lexer.note_of_isSome (Reader.isSome_error_note _ _ _)]
    · exact ⟨place i, cause i, rfl⟩
  choose place' cause' hrun using hnote
  have hspec : Spec z j (fun i ↦ Parse.note (place' i) (cause' i) >>= fun _ ↦ m i) R := note h
  simpa only [hrun] using hspec s hs

end Spec


/-! ### Elements -/

/-- On expressions below a size that look alike, `f` goes the same way on both sides. -/
def Rereads (z : Respacing) (f : Expr → Parse Expr) (n : Nat) : Prop :=
  ∀ (e : Side → Expr) (j : Joint), sizeOf (e .old) < n → Alike z .shape e →
    (j.dirty = false → Alike z .commas e) → Spec z j (fun i ↦ f (e i)) (RecastExpr z j e)

/-- What comes out of re-reading the elements of an array. -/
structure RecastElements (z : Respacing) (j : Joint) (sp : Side → Span)
    (a : Side → List (Option Expr)) (b : Side → Option (List (Option Expr) × Option Expr))
    (j' : Joint) : Prop extends Recast z j a b j' where
  broken : b .old = none → j'.dirty = true
  unmarked : j'.dirty = false →
    ∀ i, ∀ p ∈ b i, (View.commas (z.source i)).markOfRest (sp i) p.2 = false

theorem View.markOf_none (v : View) (sp : Span) (elements : List (Option Expr)) :
    v.markOf sp (none :: elements) = v.markOf sp elements := by
  rw [View.markOf]
  simp

/-- Only a spread marks an array. -/
theorem View.markOf_some {e : Expr} (v : View) (sp : Span) (elements : List (Option Expr))
    (h : ∀ place inner, e ≠ .spread place inner) :
    v.markOf sp (some e :: elements) = v.markOf sp elements := by
  rw [View.markOf]
  intro place inner heq
  exact absurd (Option.some.inj heq) (h place inner)

/-- An expression is a spread or is none. -/
theorem Expr.spread_or_not (e : Expr) :
    (∃ place inner, e = .spread place inner) ∨ ∀ place inner, e ≠ .spread place inner := by
  cases e with
  | spread place inner => exact .inl ⟨place, inner, rfl⟩
  | _ => exact .inr fun _ _ ↦ nofun

/-- A re-reading refuses what cannot be a target. -/
def Refuses (f : Expr → Parse Expr) : Prop :=
  ∀ e : Expr, e.isTargetable = false →
    ∃ place cause sp, f e = (do Parse.note place cause; return .bad sp)

theorem isTargetable_view (v : View) (e : Expr) : (e.view v).isTargetable = e.isTargetable := by
  cases e <;> rfl

theorem Alike.isTargetable {μ : Mode} {e : Side → Expr} (h : Alike z μ e) (i : Side) :
    (e i).isTargetable = (e .old).isTargetable := by
  have hi := congrArg Expr.isTargetable (h i)
  rwa [Tree.view_expr, isTargetable_view, isTargetable_view] at hi

section

variable {sp : Side → Span} {els : Side → List (Option Expr)}

theorem exists_pair {α β : Type} (p : Side → α × β) :
    ∃ (a : Side → α) (b : Side → β), p = fun i ↦ (a i, b i) :=
  ⟨fun i ↦ (p i).1, fun i ↦ (p i).2, rfl⟩

/-- One more element in front of what has been re-read, unless that is broken. -/
theorem Recast.cons {α : Type} [Tree α] {x x' : Side → α} {xs : Side → List α}
    {b : Side → Option (List α × Option Expr)} (hx : Recast z j x x' j') (h : Recast z j' xs b j'')
    (hbroken : b .old = none → j''.dirty = true) :
    Recast z j (fun i ↦ x i :: xs i) (fun i ↦ (b i).map fun p ↦ (x' i :: p.1, p.2)) j'' := by
  have hstate : j'' = { j with dirty := j''.dirty } := by
    rw [h.state, hx.state]
  rcases h.shape.option with rfl | ⟨p, rfl, hp⟩
  · have hdirty := hbroken rfl
    exact ⟨hstate, by simp [hdirty], fun _ ↦ rfl, by simp [hdirty], by simp [hdirty]⟩
  obtain ⟨ps, rest, rfl⟩ := exists_pair p
  rw [alike_pair] at hp
  refine ⟨hstate, fun hd ↦ hx.clean (h.clean hd), ?_, fun hd μ hμ ↦ ?_, fun hd i ↦ ?_⟩
  · exact alike_some.2 (alike_pair.2 ⟨alike_cons.2 ⟨hx.shape, hp.1⟩, hp.2⟩)
  · rw [alike_cons] at hμ
    have hrest := h.alike hd μ hμ.2
    rw [alike_some, alike_pair] at hrest
    exact alike_some.2 (alike_pair.2
      ⟨alike_cons.2 ⟨hx.alike (h.clean hd) μ hμ.1, hrest.1⟩, hrest.2⟩)
  · have hhead := hx.entries (h.clean hd) i
    have htail := h.entries hd i
    simp only [Option.map_some, Tree.entries_some, Tree.entries_pair, Tree.entries_cons] at htail ⊢
    rw [hhead, List.append_assoc, htail]

/-- An element in front of others is re-read before them. -/
theorem RecastElements.cons {e e' : Side → Option Expr}
    {b : Side → Option (List (Option Expr) × Option Expr)} (he : Recast z j e e' j')
    (h : RecastElements z j' sp els b j'') :
    RecastElements z j sp (fun i ↦ e i :: els i)
      (fun i ↦ (b i).map fun p ↦ (e' i :: p.1, p.2)) j'' := by
  refine ⟨he.cons h.toRecast h.broken, fun hnone ↦ h.broken (by simpa using hnone),
    fun hd i q hq ↦ ?_⟩
  obtain ⟨p, hp, rfl⟩ := Option.map_eq_some_iff.1 hq
  exact h.unmarked hd i p hp

/-- A list of elements that cannot be re-read. -/
theorem recastElements_none {b : Side → List (Option Expr)} :
    RecastElements z j sp b (fun _ ↦ none) { j with dirty := true } :=
  ⟨.of_dirty fun _ ↦ rfl, fun _ ↦ rfl, by simp⟩

end

/-! The two ways in which an element in front is dealt with. -/

section

variable {last : Expr → Parse Expr} {span : Span} {elements : List (Option Expr)}

/-- A hole is re-read as a hole. -/
theorem rereadElements_none :
    rereadElements last span (none :: elements) = (do
      let result ← rereadElements last span elements
      return result.map fun p ↦ (none :: p.1, p.2)) := by
  rw [rereadElements]
  congr 1
  funext result
  cases result <;> rfl

/-- An element that is no spread is re-read as a target, and then the others. -/
theorem rereadElements_some {e : Expr} (h : ∀ place inner, e ≠ .spread place inner) :
    rereadElements last span (some e :: elements) = (do
      let element ← assignTarget true e
      let result ← rereadElements last span elements
      return result.map fun p ↦ (some element :: p.1, p.2)) := by
  rw [rereadElements]
  · congr 1
    funext element
    congr 1
    funext result
    cases result <;> rfl
  · exact fun place inner _ heq ↦ h place inner heq
  · exact fun place inner heq ↦ h place inner heq

end


theorem Recast.some {α β : Type} [Tree α] [Tree β] {a : Side → α} {b : Side → β}
    (h : Recast z j a b j') : Recast z j (fun i ↦ some (a i)) (fun i ↦ some (b i)) j' :=
  ⟨h.state, h.clean, alike_some.2 h.shape, fun hd μ hμ ↦ alike_some.2 (h.alike hd μ (alike_some.1 hμ)),
    fun hd i ↦ by simpa using h.entries hd i⟩

/-- Trees that look alike are both spreads, or neither is one. -/
theorem Alike.spread_or_not {e : Side → Expr} (h : Alike z .shape e) :
    (∃ (place : Side → Span) (inner : Side → Expr), e = fun i ↦ .spread (place i) (inner i)) ∨
      ∀ i place inner, e i ≠ .spread place inner := by
  rcases (e .old).spread_or_not with ⟨place, inner, hold⟩ | hold
  · left
    have hview : ∀ i, (e i).view .shape = .spread default (inner.view .shape) := fun i ↦ by
      have hi := h i
      rw [Tree.view_expr, hold] at hi
      exact hi
    choose place inner he using fun i ↦ eq_spread_of_view (hview i)
    exact ⟨place, inner, funext he⟩
  · right
    intro i place inner heq
    have hi := h i
    rw [heq] at hi
    obtain ⟨place', inner', hspread⟩ := eq_spread_of_view hi.symm
    exact hold place' inner' hspread

/-- The rest element, behind which no comma may stand. -/
theorem Spec.rereadRest {last : Expr → Parse Expr} {n : Nat} (hlast : Rereads z last n)
    (hrefuses : Refuses last) {sp place : Side → Span} {inner : Side → Expr}
    (hn : sizeOf (inner .old) < n) (hshape : Alike z .shape inner)
    (hcommas : j.dirty = false → Alike z .commas inner ∧
      ∀ i, (View.commas (z.source i)).mark (sp i) (inner i)
        = (View.commas (z.source .old)).mark (sp .old) (inner .old)) :
    Spec z j (fun i ↦ Script.rereadElements last (sp i) [some (.spread (place i) (inner i))])
      (RecastElements z j sp fun i ↦ [some (.spread (place i) (inner i))]) := by
  simp only [Script.rereadElements]
  cases ht : (inner .old).isTargetable with
  | true =>
    have hmark : ∀ i, (View.commas (z.source i)).mark (sp i) (inner i)
        = hasComma (z.source i) (inner i).stop ((sp i).stop - 1) := fun i ↦ by
      have hi := hshape.isTargetable i
      rw [ht] at hi
      simp only [View.commas, hi, Bool.true_and]
      rfl
    simp only [hmark] at hcommas
    refine checkComma (fun hd ↦ ⟨_, (hcommas hd).2⟩) fun d hd ↦ ?_
    refine bind (hlast inner _ hn hshape fun hclean ↦ (hcommas (hd hclean).1).1) ?_
    intro e' j1 _ he'
    refine pure ⟨⟨he'.state, fun hclean ↦ (hd (he'.clean hclean)).1, ?_, fun hclean μ hμ ↦ ?_,
      fun hclean i ↦ ?_⟩, by simp, fun hclean i p hp ↦ ?_⟩
    · exact alike_some.2 (alike_pair.2 ⟨fun _ ↦ rfl, alike_some.2 he'.shape⟩)
    · rw [alike_cons, alike_some, alike_spread] at hμ
      exact alike_some.2 (alike_pair.2 ⟨fun _ ↦ rfl, alike_some.2 (he'.alike hclean μ hμ.1)⟩)
    · simpa [Tree.entries_expr, Expr.occurrences] using he'.entries hclean i
    · obtain rfl := Option.some.inj hp
      have hcomma := (hd (he'.clean hclean)).2 i
      have hstop : (e' i).stop = (inner i).stop := congrArg Span.stop (he'.kept hclean i).span
      rw [← hstop] at hcomma
      simp only [View.markOfRest, View.commas]
      exact (congrArg _ hcomma).trans (Bool.and_false _)
  | false =>
    have hbad : ∀ i, ∃ place cause sp, last (inner i) = (do
        Parse.note place cause
        return .bad sp) := fun i ↦ hrefuses _ ((hshape.isTargetable i).trans ht)
    choose error cause bad hlast using hbad
    simp only [hlast, bind_assoc, pure_bind]
    refine checkComma_note (pure ⟨.of_dirty ?_, by simp, by simp⟩)
    exact alike_some.2 (alike_pair.2 ⟨fun _ ↦ rfl, alike_some.2 alike_bad⟩)

/-- **Elements.** -/
theorem Spec.rereadElements {last : Expr → Parse Expr} {n : Nat} (hlast : Rereads z last n)
    (hrefuses : Refuses last) (htarget : Rereads z (assignTarget true) n) {sp : Side → Span} :
    ∀ {els : Side → List (Option Expr)} {j : Joint}, sizeOf (els .old) ≤ n → Alike z .shape els →
      (j.dirty = false → Alike z .commas els ∧ ∀ i, (View.commas (z.source i)).markOf (sp i) (els i)
        = (View.commas (z.source .old)).markOf (sp .old) (els .old)) →
      Spec z j (fun i ↦ Script.rereadElements last (sp i) (els i)) (RecastElements z j sp els) := by
  intro els j hn hshape hcommas
  induction hlength : (els .old).length generalizing els j with
  | zero =>
    obtain rfl | ⟨x, xs, rfl, -⟩ := hshape.list
    · exact pure ⟨⟨rfl, id, fun _ ↦ rfl, fun _ _ _ _ ↦ rfl, fun _ _ ↦ rfl⟩, by simp,
        fun _ i p hp ↦ by obtain rfl := Option.some.inj hp; rfl⟩
    · simp at hlength
  | succ m ih =>
    obtain rfl | ⟨x, xs, rfl, hx, hxs⟩ := hshape.list
    · simp at hlength
    simp only [List.length_cons, Nat.add_right_cancel_iff] at hlength
    simp only [List.cons.sizeOf_spec] at hn
    simp only [alike_cons] at hcommas
    obtain rfl | ⟨e, rfl, he⟩ := hx.option
    · simp only [rereadElements_none]
      simp only [View.markOf_none] at hcommas
      refine bind (ih (by omega) hxs (fun hd ↦ ⟨(hcommas hd).1.2, (hcommas hd).2⟩) hlength) ?_
      intro r j1 _ hr
      exact pure (.cons (.refl fun _ ↦ rfl) hr)
    simp only [Option.some.sizeOf_spec] at hn
    simp only [alike_some] at hcommas
    obtain ⟨place, inner, rfl⟩ | hspread := he.spread_or_not
    · obtain rfl | ⟨y, ys, rfl, hy, hys⟩ := hxs.list
      · exact rereadRest hlast hrefuses (by simp at hn ⊢; omega) (alike_spread.1 he) fun hd ↦
          ⟨alike_spread.1 (hcommas hd).1.1, (hcommas hd).2⟩
      · simp only [Script.rereadElements]
        exact note (pure recastElements_none)
    · simp only [rereadElements_some (hspread _)]
      simp only [View.markOf_some _ _ _ (hspread _)] at hcommas
      refine bind (htarget e j (by omega) he fun hd ↦ (hcommas hd).1.1) ?_
      intro e' j1 _ he'
      refine bind (ih (by omega) hxs (fun hd ↦ ?_) hlength) ?_
      · exact ⟨(hcommas (he'.clean hd)).1.2, (hcommas (he'.clean hd)).2⟩
      intro r j2 _ hr
      exact pure (.cons he'.toRecast.some hr)


/-! ### Entries -/

/-- The forms of an entry. -/
inductive Alike.Entries (z : Respacing) (p : Side → Property) : Prop
  | short {sp : Side → Span} {name : Bytes} {initializer : Side → Option Expr}
      (h : p = fun i ↦ .short (sp i) name (initializer i))
  | keyed {kind : PropertyKind} {computed : Bool} {key value : Side → Expr}
      (h : p = fun i ↦ .keyed kind computed (key i) (value i))
  | spread {inner : Side → Expr} (h : p = fun i ↦ .spread (inner i))

/-- Properties that look alike are of one form. -/
theorem Alike.property {p : Side → Property} (h : Alike z .shape p) : Alike.Entries z p := by
  have hview : ∀ i, (p i).view .shape = (p .old).view .shape := h
  cases hold : p .old with
  | short _ name _ =>
    have hshort : ∀ i, ∃ sp initializer, p i = .short sp name initializer := fun i ↦ by
      have hi := hview i
      rw [hold] at hi
      cases hp : p i with
      | short sp name' initializer =>
        rw [hp, Property.view, Property.view, Property.short.injEq] at hi
        exact ⟨sp, initializer, by rw [hi.2.1]⟩
      | keyed | spread => rw [hp] at hi; simp [Property.view] at hi
    choose sp initializer hp using hshort
    exact .short (funext hp)
  | keyed kind computed _ _ =>
    have hkeyed : ∀ i, ∃ key value, p i = .keyed kind computed key value := fun i ↦ by
      have hi := hview i
      rw [hold] at hi
      cases hp : p i with
      | keyed kind' computed' key value =>
        rw [hp, Property.view, Property.view, Property.keyed.injEq] at hi
        exact ⟨key, value, by rw [hi.1, hi.2.1]⟩
      | short | spread => rw [hp] at hi; simp [Property.view] at hi
    choose key value hp using hkeyed
    exact .keyed (funext hp)
  | spread _ =>
    have hspread : ∀ i, ∃ inner, p i = .spread inner := fun i ↦ by
      have hi := hview i
      rw [hold] at hi
      cases hp : p i with
      | spread inner => exact ⟨inner, rfl⟩
      | short | keyed => rw [hp] at hi; simp [Property.view] at hi
    choose inner hp using hspread
    exact .spread (funext hp)

theorem alike_spreadProperty {μ : Mode} {inner : Side → Expr} :
    Alike z μ (fun i ↦ Property.spread (inner i)) ↔ Alike z μ inner := by
  simp [Alike, Property.view]

/-- What comes out of re-reading the entries of an object. -/
structure RecastProperties (z : Respacing) (j : Joint) (a : Side → List Property)
    (b : Side → Option (List Property × Option Expr)) (j' : Joint) : Prop
    extends Recast z j a b j' where
  broken : b .old = none → j'.dirty = true

theorem recastProperties_none {a : Side → List Property} :
    RecastProperties z j a (fun _ ↦ none) { j with dirty := true } :=
  ⟨.of_dirty fun _ ↦ rfl, fun _ ↦ rfl⟩

theorem RecastProperties.cons {ps : Side → List Property} {p p' : Side → Property}
    {b : Side → Option (List Property × Option Expr)} (hp : Recast z j p p' j')
    (h : RecastProperties z j' ps b j'') :
    RecastProperties z j (fun i ↦ p i :: ps i)
      (fun i ↦ (b i).map fun q ↦ (p' i :: q.1, q.2)) j'' :=
  ⟨hp.cons h.toRecast h.broken, fun hnone ↦ h.broken (by simpa using hnone)⟩

section

variable {target last : Expr → Parse Expr} {cause : Cause} {properties : List Property}

/-- A shorthand property is re-read as it is. -/
theorem rereadProperties_short {span : Span} {name : Bytes} {initializer : Option Expr} :
    rereadProperties target last cause (.short span name initializer :: properties) = (do
      let result ← rereadProperties target last cause properties
      return result.map fun q ↦ (.short span name initializer :: q.1, q.2)) := by
  rw [rereadProperties]
  congr 1
  funext result
  cases result <;> rfl

/-- The value of a property is re-read as a target, and then the others. -/
theorem rereadProperties_keyed {computed : Bool} {key value : Expr} :
    rereadProperties target last cause (.keyed .value computed key value :: properties) = (do
      let value ← target value
      let result ← rereadProperties target last cause properties
      return result.map fun q ↦ (.keyed .value computed key value :: q.1, q.2)) := by
  rw [rereadProperties]
  congr 1
  funext value
  congr 1
  funext result
  cases result <;> rfl

end

/-- A property whose value was re-read has been re-read. -/
theorem RecastExpr.keyed {kind : PropertyKind} {computed : Bool} {key value value' : Side → Expr}
    (hkey : Alike z .shape key) (h : RecastExpr z j value value' j') :
    Recast z j (fun i ↦ Property.keyed kind computed (key i) (value i))
      (fun i ↦ Property.keyed kind computed (key i) (value' i)) j' where
  state := h.state
  clean := h.clean
  shape := alike_keyed.2 ⟨hkey, h.shape⟩
  alike hd μ hμ := by
    rw [alike_keyed] at hμ
    exact alike_keyed.2 ⟨hμ.1, h.alike hd μ hμ.2⟩
  entries hd i := by
    have hstart : (value' i).start = (value i).start := congrArg Span.start (h.kept hd i).span
    simp only [Tree.entries_keyed, Tree.entriesOfKey, hstart, h.entries hd i]

/-- **Entries.** -/
theorem Spec.rereadProperties {target last : Expr → Parse Expr} {n : Nat} {cause : Cause}
    (htarget : Rereads z target n) (hlast : Rereads z last n) :
    ∀ {ps : Side → List Property} {j : Joint}, sizeOf (ps .old) ≤ n → Alike z .shape ps →
      (j.dirty = false → Alike z .commas ps) →
      Spec z j (fun i ↦ Script.rereadProperties target last cause (ps i))
        (RecastProperties z j ps) := by
  intro ps j hn hshape hcommas
  induction hlength : (ps .old).length generalizing ps j with
  | zero =>
    obtain rfl | ⟨x, xs, rfl, -⟩ := hshape.list
    · exact pure ⟨⟨rfl, id, fun _ ↦ rfl, fun _ _ _ _ ↦ rfl, fun _ _ ↦ rfl⟩, by simp⟩
    · simp at hlength
  | succ m ih =>
    obtain rfl | ⟨p, xs, rfl, hp, hxs⟩ := hshape.list
    · simp at hlength
    simp only [List.length_cons, Nat.add_right_cancel_iff] at hlength
    simp only [List.cons.sizeOf_spec] at hn
    simp only [alike_cons] at hcommas
    cases hp.property with
    | short h =>
      subst h
      simp only [rereadProperties_short]
      refine bind (ih (by omega) hxs (fun hd ↦ (hcommas hd).2) hlength) ?_
      intro r j1 _ hr
      exact pure (.cons (.refl hp) hr)
    | @keyed kind computed key value h =>
      subst h
      simp only [Property.keyed.sizeOf_spec] at hn
      simp only [alike_keyed] at hp hcommas
      cases kind with
      | value =>
        simp only [rereadProperties_keyed]
        refine bind (htarget value j (by omega) hp.2 fun hd ↦ (hcommas hd).1.2) ?_
        intro value' j1 _ hvalue
        refine bind (ih (by omega) hxs (fun hd ↦ (hcommas (hvalue.clean hd)).2) hlength) ?_
        intro r j2 _ hr
        exact pure (.cons (hvalue.keyed hp.1) hr)
      | getter | setter | method =>
        simp only [Script.rereadProperties]
        exact note (pure recastProperties_none)
    | @spread inner h =>
      subst h
      simp only [Property.spread.sizeOf_spec] at hn
      simp only [alike_spreadProperty] at hp hcommas
      obtain rfl | ⟨y, ys, rfl, hy, hys⟩ := hxs.list
      · simp only [Script.rereadProperties]
        refine bind (hlast inner j (by omega) hp fun hd ↦ (hcommas hd).1) ?_
        intro e j1 _ he
        refine pure ⟨⟨he.state, he.clean, ?_, fun hd μ hμ ↦ ?_, fun hd i ↦ ?_⟩, by simp⟩
        · exact alike_some.2 (alike_pair.2 ⟨fun _ ↦ rfl, alike_some.2 he.shape⟩)
        · rw [alike_cons, alike_spreadProperty] at hμ
          exact alike_some.2 (alike_pair.2 ⟨fun _ ↦ rfl, alike_some.2 (he.alike hd μ hμ.1)⟩)
        · simpa using he.entries hd i
      · simp only [Script.rereadProperties]
        exact note (pure recastProperties_none)


/-! ### Assignment targets -/

/-- Re-reading for an assignment refuses in the way that re-reading in general asks for. -/
theorem refuses_assignTarget : Refuses (assignTarget false) := by
  intro e he
  cases e with
  | identifier | member | privateMember | index => simp [Expr.isTargetable] at he
  | array | object | arrayPattern | objectPattern => simp [Expr.isTargetable] at he
  | assignment => exact ⟨_, _, _, by simp only [assignTarget]; rfl⟩
  | _ => exact ⟨_, _, _, rfl⟩

theorem assignTarget_of_isAccess {e : Expr} (h : e.isAccess = true) (withDefault : Bool) :
    assignTarget withDefault e = pure e := by
  cases e <;> first | rfl | simp [Expr.isAccess] at h

theorem assignTarget_of_isRefused {e : Expr} (h : e.isRefused = true) (withDefault : Bool) :
    assignTarget withDefault e = refuse e .badDestructuringTarget := by
  cases e <;> first | rfl | simp [Expr.isRefused] at h

theorem Spec.refuse {e : Side → Expr} {cause : Cause} :
    Spec z j (fun i ↦ Script.refuse (e i) cause) (RecastExpr z j e) :=
  note (pure .bad)

/-- An assignment whose target is re-read. -/
theorem RecastExpr.assignment {sp : Side → Span} {op : Token} {left left' right : Side → Expr}
    (h : RecastExpr z j left left' j') (hright : Alike z .shape right) :
    RecastExpr z j (fun i ↦ .assignment (sp i) op (left i) (right i))
      (fun i ↦ .assignment (sp i) op (left' i) (right i)) j' where
  state := h.state
  clean := h.clean
  shape := alike_assignment.2 ⟨h.shape, hright⟩
  alike hd μ hμ := by
    rw [alike_assignment] at hμ
    exact alike_assignment.2 ⟨h.alike hd μ hμ.1, hμ.2⟩
  entries hd i := by
    have hleft := h.entries hd i
    simp only [Tree.entries_expr, Expr.occurrences, entriesOf_append] at hleft ⊢
    rw [hleft]
  kept _ _ := ⟨rfl, by simp only [Expr.endsExactly], rfl, rfl, rfl⟩

/-- What stands in for an expression whose parts cannot be re-read. -/
theorem RecastExpr.bad_of_dirty {α β : Type} [Tree α] [Tree β] {a : Side → α} {b : Side → β}
    {e : Side → Expr} {sp : Side → Span} (h : Recast z j a b j') (hd : j'.dirty = true) :
    RecastExpr z j e (fun i ↦ .bad (sp i)) j' :=
  ⟨⟨h.state, h.clean, alike_bad, by simp [hd], by simp [hd]⟩, by simp [hd]⟩

/-- An array that is re-read as a pattern. -/
theorem RecastElements.pattern {sp : Side → Span} {els els' : Side → List (Option Expr)}
    {rest : Side → Option Expr} (h : RecastElements z j sp els (fun i ↦ some (els' i, rest i)) j') :
    RecastExpr z j (fun i ↦ .array (sp i) (els i)) (fun i ↦ .arrayPattern (sp i) (els' i) (rest i))
      j' where
  state := h.state
  clean := h.clean
  shape := by
    have hshape := h.shape
    rw [alike_some, alike_pair] at hshape
    refine alike_arrayPattern.2 ⟨fun i ↦ ?_, hshape⟩
    cases rest i <;> cases rest .old <;> rfl
  alike hd μ hμ := by
    have halike := h.alike hd μ (alike_array.1 hμ).2
    rw [alike_some, alike_pair] at halike
    refine alike_arrayPattern.2 ⟨fun i ↦ ?_, halike⟩
    cases μ with
    | shape | bare => cases rest i <;> cases rest .old <;> rfl
    | commas => exact (h.unmarked hd i _ rfl).trans (h.unmarked hd .old _ rfl).symm
  entries hd i := by
    have hentries := h.entries hd i
    simp only [Tree.entries_some, Tree.entries_pair] at hentries
    simp only [Tree.entries_expr, Expr.occurrences, entriesOf_append, Tree.entries_ofElements,
      Tree.entries_ofRest, Tree.entries_inElements]
    exact hentries
  kept _ _ := ⟨rfl, by simp only [Expr.endsExactly], rfl, rfl, rfl⟩

/-- An object that is re-read as a pattern. -/
theorem RecastProperties.pattern {sp : Side → Span} {ps ps' : Side → List Property}
    {rest : Side → Option Expr} (h : RecastProperties z j ps (fun i ↦ some (ps' i, rest i)) j') :
    RecastExpr z j (fun i ↦ .object (sp i) (ps i)) (fun i ↦ .objectPattern (sp i) (ps' i) (rest i))
      j' where
  state := h.state
  clean := h.clean
  shape := by
    have hshape := h.shape
    rw [alike_some, alike_pair] at hshape
    exact alike_objectPattern.2 hshape
  alike hd μ hμ := by
    have halike := h.alike hd μ (alike_object.1 hμ)
    rw [alike_some, alike_pair] at halike
    exact alike_objectPattern.2 halike
  entries hd i := by
    have hentries := h.entries hd i
    simp only [Tree.entries_some, Tree.entries_pair] at hentries
    simp only [Tree.entries_expr, Expr.occurrences, entriesOf_append, Tree.entries_inPattern,
      Tree.entries_ofRest, Tree.entries_inLiteral]
    exact hentries
  kept _ _ := ⟨rfl, by simp only [Expr.endsExactly], rfl, rfl, rfl⟩

/-- **Assignment targets.** -/
theorem rereads_assignTarget (n : Nat) : ∀ withDefault, Rereads z (assignTarget withDefault) n := by
  induction n with
  | zero => exact fun _ _ _ hn ↦ absurd hn (Nat.not_lt_zero _)
  | succ n ih =>
    intro withDefault e j hn hshape hcommas
    cases hshape.target with
    | @assignment sp op left right h =>
      subst h
      simp only [Expr.assignment.sizeOf_spec] at hn
      rw [alike_assignment] at hshape
      simp only [alike_assignment] at hcommas
      simp only [assignTarget]
      split
      · refine .bind (ih false left j (by omega) hshape.1 fun hd ↦ (hcommas hd).1) ?_
        intro left' j1 _ hleft
        exact .pure (hleft.assignment hshape.2)
      · exact .note (.pure .bad)
    | @array sp els h =>
      subst h
      simp only [Expr.array.sizeOf_spec] at hn
      simp only [alike_array] at hcommas
      simp only [assignTarget, assignElements_eq]
      refine .bind (.rereadElements (ih false) refuses_assignTarget (ih true) (by omega)
        (alike_array.1 hshape).2 fun hd ↦ ⟨(hcommas hd).2, (hcommas hd).1⟩) ?_
      intro r j1 _ hr
      rcases hr.shape.option with rfl | ⟨p, rfl, -⟩
      · exact .pure (.bad_of_dirty hr.toRecast (hr.broken rfl))
      · exact .pure (@RecastElements.pattern z _ _ _ _ (fun i ↦ (p i).1) (fun i ↦ (p i).2) hr)
    | @object sp ps h =>
      subst h
      simp only [Expr.object.sizeOf_spec] at hn
      simp only [alike_object] at hshape hcommas
      simp only [assignTarget, assignProperties_eq]
      refine .bind (.rereadProperties (ih true) (fun e j _ he _ ↦ .pure (.refl he)) (by omega) hshape
        hcommas) ?_
      intro r j1 _ hr
      rcases hr.shape.option with rfl | ⟨p, rfl, -⟩
      · exact .pure (.bad_of_dirty hr.toRecast (hr.broken rfl))
      · exact .pure (@RecastProperties.pattern z _ _ _ _ (fun i ↦ (p i).1) (fun i ↦ (p i).2) hr)
    | arrayPattern h | objectPattern h | identifier h =>
      subst h
      simp only [assignTarget]
      exact .pure (.refl hshape)
    | access h =>
      simp only [assignTarget_of_isAccess (h _)]
      exact .pure (.refl hshape)
    | refused h =>
      simp only [assignTarget_of_isRefused (h _)]
      exact .refuse

end ColonGap.Script
