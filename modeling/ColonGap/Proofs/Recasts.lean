import ColonGap.Proofs.Moves
import ColonGap.Script.Parser.Pattern

/-!
# Trees that are read again

An array or object literal may be re-read as a pattern. On two trees that look alike this goes the
same way (`Alike.target`), and what comes out looks alike again. `Recast` says what re-reading
keeps: the entries, and of an expression its span and what is known about its end.

A pair of trees that look alike is taken apart in step: `Alike.option` and `Alike.list` turn a pair
of values into a value of pairs, so that the definitions of the parser can be unfolded on both sides
at once.
-/

namespace ColonGap.Script

open Piece

variable {z : Respacing} {j j' j'' k : Joint}

/-- Two optional values that are there together are none, or a pair of values. -/
theorem exists_option {α : Type} {a : Side → Option α}
    (h : ∀ i, (a i).isSome = (a .old).isSome) :
    a = (fun _ ↦ none) ∨ ∃ x : Side → α, a = fun i ↦ some (x i) := by
  cases hold : a .old with
  | none =>
    left
    funext i
    have hi := h i
    rw [hold] at hi
    simpa using hi
  | some _ =>
    right
    have hsome : ∀ i, ∃ x, a i = some x := fun i ↦ by
      have hi := h i
      rw [hold] at hi
      exact Option.isSome_iff_exists.1 hi
    choose x hx using hsome
    exact ⟨x, funext hx⟩

/-- Two lists of the same length are empty, or have a pair of first items and a pair of tails. -/
theorem exists_list {α : Type} {a : Side → List α} (h : ∀ i, (a i).length = (a .old).length) :
    a = (fun _ ↦ []) ∨ ∃ (x : Side → α) (xs : Side → List α), a = fun i ↦ x i :: xs i := by
  cases hold : a .old with
  | nil =>
    left
    funext i
    have hi := h i
    rw [hold] at hi
    exact List.eq_nil_of_length_eq_zero hi
  | cons _ _ =>
    right
    have hcons : ∀ i, ∃ x xs, a i = x :: xs := fun i ↦ by
      have hi := h i
      rw [hold] at hi
      exact List.exists_cons_of_length_eq_add_one hi
    choose x xs hx using hcons
    exact ⟨x, xs, funext hx⟩

/-! ### Looking alike, part by part -/

section

variable {α β : Type} [Tree α] [Tree β] {μ : Mode}

/-- Optional trees that look alike are both missing, or both there and look alike. -/
theorem Alike.option {a : Side → Option α} (h : Alike z μ a) :
    a = (fun _ ↦ none) ∨ ∃ x : Side → α, a = (fun i ↦ some (x i)) ∧ Alike z μ x := by
  have hsome : ∀ i, (a i).isSome = (a .old).isSome := fun i ↦ by
    simpa using congrArg Option.isSome (h i)
  rcases exists_option hsome with rfl | ⟨x, rfl⟩
  · exact .inl rfl
  · exact .inr ⟨x, rfl, fun i ↦ Option.some.inj (h i)⟩

/-- Lists that look alike are empty, or their first items and their tails look alike. -/
theorem Alike.list {a : Side → List α} (h : Alike z μ a) :
    a = (fun _ ↦ []) ∨ ∃ (x : Side → α) (xs : Side → List α), a = (fun i ↦ x i :: xs i) ∧
      Alike z μ x ∧ Alike z μ xs := by
  have hlength : ∀ i, (a i).length = (a .old).length := fun i ↦ by
    simpa using congrArg List.length (h i)
  rcases exists_list hlength with rfl | ⟨x, xs, rfl⟩
  · exact .inl rfl
  · exact .inr ⟨x, xs, rfl, fun i ↦ (List.cons.inj (h i)).1, fun i ↦ (List.cons.inj (h i)).2⟩

theorem alike_some {x : Side → α} : Alike z μ (fun i ↦ some (x i)) ↔ Alike z μ x :=
  forall_congr' fun _ ↦ Option.some_inj

/-- Lists look alike exactly if their first items and their tails do. -/
theorem alike_cons {x : Side → α} {xs : Side → List α} :
    Alike z μ (fun i ↦ x i :: xs i) ↔ Alike z μ x ∧ Alike z μ xs := by
  simp only [Alike, Tree.view_list, List.map_cons, List.cons.injEq, forall_and]

/-- Pairs look alike exactly if they do so on both sides. -/
theorem alike_pair {a : Side → α} {b : Side → β} :
    Alike z μ (fun i ↦ (a i, b i)) ↔ Alike z μ a ∧ Alike z μ b := by
  simp only [Alike, Tree.view_pair, Prod.mk.injEq, forall_and]

end

section

variable {μ : Mode} {sp : Side → Span} {l r : Side → Expr}

theorem alike_bad : Alike z μ fun i ↦ Expr.bad (sp i) :=
  fun _ ↦ rfl

theorem alike_spread : Alike z μ (fun i ↦ Expr.spread (sp i) (l i)) ↔ Alike z μ l := by
  simp [Alike, Expr.view]

theorem alike_assignment {op : Token} :
    Alike z μ (fun i ↦ Expr.assignment (sp i) op (l i) (r i)) ↔ Alike z μ l ∧ Alike z μ r := by
  simp [Alike, Expr.view, forall_and]

theorem label_inj {a b : Bool} : View.label a = View.label b ↔ a = b := by
  cases a <;> cases b <;> decide

/-- Array literals look alike exactly if their elements do and their marks agree. -/
theorem alike_array {els : Side → List (Option Expr)} :
    Alike z μ (fun i ↦ Expr.array (sp i) (els i)) ↔
      (∀ i, (μ.view z i).markOf (sp i) (els i) = (μ.view z .old).markOf (sp .old) (els .old)) ∧
        Alike z μ els := by
  simp only [Alike, Tree.view_expr, Expr.view, Expr.array.injEq, forall_and, viewElements_eq]
  exact and_congr (forall_congr' fun i ↦ label_inj) Iff.rfl

/-- Object literals look alike exactly if their properties do. -/
theorem alike_object {ps : Side → List Property} :
    Alike z μ (fun i ↦ Expr.object (sp i) (ps i)) ↔ Alike z μ ps := by
  simp only [Alike, Tree.view_expr, Expr.view, Expr.object.injEq, true_and, viewProperties_eq]
  rfl

/-- Array patterns look alike exactly if elements and rest do and their marks agree. -/
theorem alike_arrayPattern {els : Side → List (Option Expr)} {rest : Side → Option Expr} :
    Alike z μ (fun i ↦ Expr.arrayPattern (sp i) (els i) (rest i)) ↔
      (∀ i, (μ.view z i).markOfRest (sp i) (rest i)
        = (μ.view z .old).markOfRest (sp .old) (rest .old)) ∧ Alike z μ els ∧ Alike z μ rest := by
  simp only [Alike, Tree.view_expr, Expr.view, Expr.arrayPattern.injEq, forall_and, viewElements_eq,
    view?_eq]
  exact and_congr (forall_congr' fun i ↦ label_inj) Iff.rfl

/-- Object patterns look alike exactly if their properties and their rest do. -/
theorem alike_objectPattern {ps : Side → List Property} {rest : Side → Option Expr} :
    Alike z μ (fun i ↦ Expr.objectPattern (sp i) (ps i) (rest i)) ↔
      Alike z μ ps ∧ Alike z μ rest := by
  simp only [Alike, Tree.view_expr, Expr.view, Expr.objectPattern.injEq, true_and,
    viewProperties_eq, view?_eq, forall_and]
  rfl

theorem alike_keyed {kind : PropertyKind} {computed : Bool} :
    Alike z μ (fun i ↦ Property.keyed kind computed (l i) (r i)) ↔ Alike z μ l ∧ Alike z μ r := by
  simp [Alike, Property.view, forall_and]

end

/-! ### What can be a target -/

/-- A member access. -/
def Expr.isAccess : Expr → Bool
  | .member .. | .privateMember .. | .index .. => true
  | _ => false

/-- What no re-reading takes for a target. -/
def Expr.isRefused : Expr → Bool
  | .assignment .. | .array .. | .object .. | .arrayPattern .. | .objectPattern .. => false
  | .identifier .. | .member .. | .privateMember .. | .index .. => false
  | _ => true

theorem isAccess_view (v : View) (e : Expr) : (e.view v).isAccess = e.isAccess := by
  cases e <;> rfl

theorem isRefused_view (v : View) (e : Expr) : (e.view v).isRefused = e.isRefused := by
  cases e <;> rfl

/-- How re-reading goes on with an expression. -/
inductive Target (e : Side → Expr) : Prop
  | assignment {sp : Side → Span} {op : Token} {left right : Side → Expr}
      (h : e = fun i ↦ .assignment (sp i) op (left i) (right i))
  | array {sp : Side → Span} {elements : Side → List (Option Expr)}
      (h : e = fun i ↦ .array (sp i) (elements i))
  | object {sp : Side → Span} {properties : Side → List Property}
      (h : e = fun i ↦ .object (sp i) (properties i))
  | arrayPattern {sp : Side → Span} {elements : Side → List (Option Expr)}
      {rest : Side → Option Expr} (h : e = fun i ↦ .arrayPattern (sp i) (elements i) (rest i))
  | objectPattern {sp : Side → Span} {properties : Side → List Property}
      {rest : Side → Option Expr} (h : e = fun i ↦ .objectPattern (sp i) (properties i) (rest i))
  | identifier {sp : Side → Span} {name : Bytes} (h : e = fun i ↦ .identifier (sp i) name)
  | access (h : ∀ i, (e i).isAccess = true)
  | refused (h : ∀ i, (e i).isRefused = true)

section

variable {v : View} {e : Expr} {sp : Span}

/-- What is viewed as an assignment is one, with the same operator. -/
theorem eq_assignment_of_view {op : Token} {l r : Expr} (h : e.view v = .assignment sp op l r) :
    ∃ sp l r, e = .assignment sp op l r := by
  cases e with
  | assignment sp' op' l' r' =>
    rw [Expr.view, Expr.assignment.injEq] at h
    exact ⟨sp', l', r', by rw [h.2.1]⟩
  | _ => simp [Expr.view] at h

/-- What is viewed as an array literal is one. -/
theorem eq_array_of_view {els : List (Option Expr)} (h : e.view v = .array sp els) :
    ∃ sp els, e = .array sp els := by
  cases e with
  | array sp' els' => exact ⟨sp', els', rfl⟩
  | _ => simp [Expr.view] at h

/-- What is viewed as an object literal is one. -/
theorem eq_object_of_view {ps : List Property} (h : e.view v = .object sp ps) :
    ∃ sp ps, e = .object sp ps := by
  cases e with
  | object sp' ps' => exact ⟨sp', ps', rfl⟩
  | _ => simp [Expr.view] at h

/-- What is viewed as an array pattern is one. -/
theorem eq_arrayPattern_of_view {els : List (Option Expr)} {rest : Option Expr}
    (h : e.view v = .arrayPattern sp els rest) : ∃ sp els rest, e = .arrayPattern sp els rest := by
  cases e with
  | arrayPattern sp' els' rest' => exact ⟨sp', els', rest', rfl⟩
  | _ => simp [Expr.view] at h

/-- What is viewed as an object pattern is one. -/
theorem eq_objectPattern_of_view {ps : List Property} {rest : Option Expr}
    (h : e.view v = .objectPattern sp ps rest) : ∃ sp ps rest, e = .objectPattern sp ps rest := by
  cases e with
  | objectPattern sp' ps' rest' => exact ⟨sp', ps', rest', rfl⟩
  | _ => simp [Expr.view] at h

/-- What is viewed as an identifier is one, of the same name. -/
theorem eq_identifier_of_view {name : Bytes} (h : e.view v = .identifier sp name) :
    ∃ sp, e = .identifier sp name := by
  cases e with
  | identifier sp' name' =>
    rw [Expr.view, Expr.identifier.injEq] at h
    exact ⟨sp', by rw [h.2]⟩
  | _ => simp [Expr.view] at h

/-- What is viewed as a spread is one. -/
theorem eq_spread_of_view {inner : Expr} (h : e.view v = .spread sp inner) :
    ∃ sp inner, e = .spread sp inner := by
  cases e with
  | spread sp' inner' => exact ⟨sp', inner', rfl⟩
  | _ => simp [Expr.view] at h

end

/-- Whether an expression can be a target, and how, is the same on both sides. -/
theorem Alike.target {e : Side → Expr} (h : Alike z .shape e) : Target e := by
  have hview : ∀ i, (e i).view .shape = (e .old).view .shape := h
  cases hold : e .old with
  | assignment _ op _ _ =>
    rw [hold] at hview
    choose sp l r he using fun i ↦ eq_assignment_of_view (hview i)
    exact .assignment (funext he)
  | array _ _ =>
    rw [hold] at hview
    choose sp els he using fun i ↦ eq_array_of_view (hview i)
    exact .array (funext he)
  | object _ _ =>
    rw [hold] at hview
    choose sp ps he using fun i ↦ eq_object_of_view (hview i)
    exact .object (funext he)
  | arrayPattern _ _ _ =>
    rw [hold] at hview
    choose sp els rest he using fun i ↦ eq_arrayPattern_of_view (hview i)
    exact .arrayPattern (funext he)
  | objectPattern _ _ _ =>
    rw [hold] at hview
    choose sp ps rest he using fun i ↦ eq_objectPattern_of_view (hview i)
    exact .objectPattern (funext he)
  | identifier _ name =>
    rw [hold] at hview
    choose sp he using fun i ↦ eq_identifier_of_view (hview i)
    exact .identifier (funext he)
  | member | privateMember | index =>
    refine .access fun i ↦ ?_
    rw [← isAccess_view .shape, hview, isAccess_view, hold]
    rfl
  | _ =>
    refine .refused fun i ↦ ?_
    rw [← isRefused_view .shape, hview, isRefused_view, hold]
    rfl


/-! ### What re-reading keeps -/

/-- Both sides have re-read `a` as `b`, and nothing else has happened but errors. -/
structure Recast {α β : Type} [Tree α] [Tree β] (z : Respacing) (j : Joint) (a : Side → α)
    (b : Side → β) (j' : Joint) : Prop where
  state : j' = { j with dirty := j'.dirty }
  clean : j'.dirty = false → j.dirty = false
  shape : Alike z .shape b
  alike : j'.dirty = false → ∀ μ, Alike z μ a → Alike z μ b
  entries : j'.dirty = false → ∀ i, Tree.entries (b i) = Tree.entries (a i)

/-- What re-reading keeps of an expression. -/
structure Kept (source : Bytes) (e e' : Expr) : Prop where
  span : e'.span = e.span
  endsExactly : e'.endsExactly source = e.endsExactly source
  isNamed : e'.isNamed = e.isNamed
  isTargetable : e'.isTargetable = e.isTargetable
  isSpread : e'.isSpread = e.isSpread

/-- Both sides have re-read the expression `a` as the expression `b`. -/
structure RecastExpr (z : Respacing) (j : Joint) (a b : Side → Expr) (j' : Joint) : Prop
    extends Recast z j a b j' where
  kept : j'.dirty = false → ∀ i, Kept (z.source i) (a i) (b i)

namespace Recast

variable {α β : Type} [Tree α] [Tree β] {a : Side → α} {b : Side → β}

theorem refl (h : Alike z .shape a) : Recast z j a a j :=
  ⟨rfl, id, h, fun _ _ ↦ id, fun _ _ ↦ rfl⟩

/-- After an error only the look of the result counts. -/
theorem of_dirty (h : Alike z .shape b) : Recast z j a b { j with dirty := true } :=
  ⟨rfl, by simp, h, by simp, by simp⟩

/-- Re-reading never takes an error back. -/
theorem grows (h : Recast z j a b j') : Grows j j' := fun hd ↦ by
  rw [h.state]
  exact ⟨h.clean hd, List.suffix_rfl, List.suffix_rfl⟩

/-- What has been re-read has been read. -/
theorem reads (h : Recast z j a b j') (ha : Reads z k a j) : Reads z k b j' where
  grows := ha.grows.trans h.grows
  alike μ hμ := by
    cases μ with
    | shape => exact h.shape
    | commas => exact h.alike hμ _ (ha.alike _ (h.clean hμ))
    | bare => exact h.alike hμ.1 _ (ha.alike _ (hμ.of_grows h.grows))
  entries hd := by
    have hpaired := (ha.entries (h.clean hd)).of_eq (h.entries hd)
    rw [h.state]
    exact hpaired

end Recast

namespace RecastExpr

variable {e e' : Side → Expr}

theorem refl (h : Alike z .shape e) : RecastExpr z j e e j :=
  ⟨.refl h, fun _ _ ↦ ⟨rfl, rfl, rfl, rfl, rfl⟩⟩

/-- An expression may become a wrong one where the error is noted. -/
theorem bad {sp : Side → Span} : RecastExpr z j e (fun i ↦ .bad (sp i)) { j with dirty := true } :=
  ⟨.of_dirty alike_bad, by simp⟩

/-- What was known about an expression that was read is known about what it is re-read as. -/
theorem readsExpr (h : RecastExpr z j e e' j') (he : ReadsExpr z k e j) :
    ReadsExpr z k e' j' := by
  refine ⟨h.reads he.toReads, fun hd ↦ ?_⟩
  have hkept := h.kept hd
  obtain ⟨hstart, ⟨b, hb, hended⟩, hnamed, hplain⟩ := he.clear (h.clean hd)
  have hlast : j'.last z = j.last z := by rw [h.state]; rfl
  have hstop : (fun i ↦ (e' i).stop) = fun i ↦ (e i).stop :=
    funext fun i ↦ congrArg Span.stop (hkept i).span
  refine ⟨fun i n hn ↦ ?_, ⟨b, fun i ↦ (hkept i).endsExactly.trans (hb i), fun htrue ↦ ?_⟩,
    fun hname ↦ ?_, (hkept .old).isSpread.trans hplain⟩
  · have hsame : (e' i).start = (e i).start := congrArg Span.start (hkept i).span
    rw [hlast]
    exact hstart i n (hsame ▸ hn)
  · rw [hlast, hstop]
    exact hended htrue
  · rw [hlast, hstop]
    exact hnamed ((hkept .old).isNamed ▸ hname)

end RecastExpr

end ColonGap.Script
