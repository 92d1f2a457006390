import ColonGap.Proofs.Twins

/-!
# What a production reads

The results of a production on the two sides are trees that look alike. `Reads` says so for any
kind of tree, and `ReadsExpr` says more of expressions: where they start, and where they end if
their end is exact.

## Shape decisions

* **Three ways to look alike.** Whatever happens, the two trees have the same shape, for otherwise
  the two parsers would go different ways. Without an error the arrays in them are marked alike.
  And if no token that was passed has a gap in it, then their literals are the same as well.
* **Entries are paired.** Each `key: value` entry of one tree corresponds to one of the other, and
  the colon of the two is one token of the trace.
-/

namespace ColonGap.Script

open Piece

variable {z : Respacing} {j j' j'' k : Joint}

/-! ### Going on -/

/-- Without an error at the end there was none before, the tokens that had been passed still are,
and the current token comes later. -/
def Grows (j j' : Joint) : Prop :=
  j'.dirty = false → j.dirty = false ∧ j.trace <:+ j'.trace ∧ j'.place <:+ j.place

theorem grows_refl (j : Joint) : Grows j j :=
  fun h ↦ ⟨h, List.suffix_rfl, List.suffix_rfl⟩

/-- Growth goes on from growth. -/
theorem Grows.trans (h : Grows j j') (h' : Grows j' j'') : Grows j j'' := fun hd ↦
  ⟨(h (h' hd).1).1, (h (h' hd).1).2.1.trans (h' hd).2.1, (h' hd).2.2.trans (h (h' hd).1).2.2⟩

/-- Skipping grows. -/
theorem Skipped.grows {rs : List Piece} (h : Skipped j rs j') : Grows j j' := fun hd ↦
  ⟨h.clean hd, h.trace ▸ List.suffix_cons _ _, h.place⟩

theorem grows_of_dirty (h : j'.dirty = true) : Grows j j' :=
  fun hd ↦ absurd hd (by simp [h])

theorem Grows.clean (h : Grows j j') (hd : j'.dirty = false) : j.dirty = false :=
  (h hd).1

theorem Grows.trace (h : Grows j j') (hd : j'.dirty = false) : j.trace <:+ j'.trace :=
  (h hd).2.1

theorem Grows.place (h : Grows j j') (hd : j'.dirty = false) : j'.place <:+ j.place :=
  (h hd).2.2

/-! ### Traces -/

namespace Trace

/-- The beginning of a chain of tokens is a chain. -/
theorem Chain.of_suffix {tr tr' : Trace} (h : Chain z tr') (hsuffix : tr <:+ tr') :
    Chain z tr := by
  obtain ⟨new, rfl⟩ := hsuffix
  induction new with
  | nil => exact h
  | cons _ new ih => exact ih h.2.2.2

/-- Later tokens end later. -/
theorem Chain.stop_suffix {tr tr' : Trace} (h : Chain z tr') (hsuffix : tr <:+ tr') :
    stop z tr' <:+ stop z tr := by
  obtain ⟨new, rfl⟩ := hsuffix
  induction new with
  | nil => exact List.suffix_rfl
  | cons _ new ih => exact h.2.1.trans (h.2.2.1.trans (ih h.2.2.2))

/-- No token of a trace has a gap in it. -/
def Rigid (tr : Trace) : Prop :=
  ∀ t ∈ tr, ∃ rs, isRigid rs = true ∧ t.1 = rs ++ t.2

theorem Rigid.of_suffix {tr tr' : Trace} (h : Rigid tr') (hsuffix : tr <:+ tr') : Rigid tr :=
  fun t ht ↦ h t (hsuffix.subset ht)

end Trace

namespace Sound

/-- The place is in the text. -/
theorem suffix (h : Sound z j) : j.place <:+ z.pieces := by
  obtain ⟨x, l, h⟩ := h
  exact h.lexes.suffix

/-- The end of the token is not in front of its start. -/
theorem stop_suffix (h : Sound z j) : j.stop <:+ j.place := by
  obtain ⟨x, l, h⟩ := h
  exact h.lexes.spelt.suffix

/-- Without an error the trace leads up to the place. -/
theorem follows (h : Sound z j) (hd : j.dirty = false) : Trace.Follows z j.trace j.place := by
  obtain ⟨x, l, h⟩ := h
  exact h.follows hd

/-- Behind tokens that have been passed, places come later. -/
theorem last_suffix (h : Sound z j') (hg : Grows j j') (hd : j'.dirty = false) :
    j'.last z <:+ j.last z :=
  (h.follows hd).chain.stop_suffix (hg.trace hd)

theorem last_pieces (h : Sound z j) (hd : j.dirty = false) : j.last z <:+ z.pieces :=
  (h.follows hd).chain.stop_suffix (List.nil_suffix : ([] : Trace) <:+ _)

/-- The end of the last token moves on. -/
theorem last_le (h : Sound z j') (hg : Grows j j') (hd : j'.dirty = false) (i : Side) :
    z.offset i (j.last z) ≤ z.offset i (j'.last z) := by
  have hsuffix := h.last_suffix hg hd
  refine Respacing.offset_le_of_suffix hsuffix ?_ i
  exact ((h.follows hd).chain.of_suffix (hg.trace hd)).stop_suffix
    (List.nil_suffix : ([] : Trace) <:+ _)

end Sound

/-! ### Looking alike -/

/-- Whether an expression can be re-read as a target without an error at itself. -/
def Expr.isTargetable : Expr → Bool
  | .identifier _ _ | .member _ _ _ | .privateMember _ _ _ | .index _ _ _ => true
  | .array _ _ | .object _ _ | .arrayPattern _ _ _ | .objectPattern _ _ _ => true
  | _ => false

/-- The view that marks the arrays with a comma behind their rest element. -/
def View.commas (source : Bytes) : View :=
  { mark := fun span inner ↦ inner.isTargetable &&
      (Bytes.indexOf? [44] (source.slice inner.stop (span.stop - 1))).isSome
    keeps := false }

/-- The view without literals and marks. -/
def View.shape : View :=
  ⟨fun _ _ ↦ false, false⟩

/-- The view that keeps literals and nothing but literals. -/
def View.bare : View :=
  ⟨fun _ _ ↦ false, true⟩

/-- How two trees look alike. -/
inductive Mode where
  | shape | commas | bare

/-- The view of a side. -/
def Mode.view (z : Respacing) (i : Side) : Mode → View
  | shape => .shape
  | commas => .commas (z.source i)
  | bare => .bare

/-- The conditions under which trees that have been read look alike. -/
def Mode.Allowed (j : Joint) : Mode → Prop
  | shape => True
  | commas => j.dirty = false
  | bare => j.dirty = false ∧ Trace.Rigid j.trace

/-- What may be compared later on may be compared before. -/
theorem Mode.Allowed.of_grows {μ : Mode} (h : μ.Allowed j') (hg : Grows j j') : μ.Allowed j := by
  cases μ with
  | shape => trivial
  | commas => exact hg.clean h
  | bare => exact ⟨hg.clean h.1, h.2.of_suffix (hg.trace h.1)⟩

/-- Two trees look alike. -/
def Alike {α : Type} [Tree α] (z : Respacing) (μ : Mode) (a : Side → α) : Prop :=
  ∀ i, Tree.view (μ.view z i) (a i) = Tree.view (μ.view z .old) (a .old)

/-! ### Entries -/

/-- A character that may stand before a gap stands before the place. -/
def Behind (z : Respacing) (ps : List Piece) : Prop :=
  ∃ g, same g :: ps <:+ z.pieces ∧ mayPrecede g.code = true

/-- The colon of two entries is a token of the trace, between their keys and their values, and it
follows the end of the key if that is exact. -/
def Sited (z : Respacing) (tr : Trace) (e : Side → Entry) : Prop :=
  ∃ older g qs, (same g :: qs, qs) :: older <:+ tr ∧ g.code = 58 ∧
    Behind z (Trace.stop z older) ∧ Joined z (Trace.stop z older) (same g :: qs) ∧
    (∃ b, (∀ i, (e i).1.endsExactly (z.source i) = b) ∧
      (b = true → Ended z (fun i ↦ (e i).1.stop) (Trace.stop z older))) ∧
    (∀ i, ∀ n ∈ (e i).1.start, n ≤ z.offset i (same g :: qs)) ∧
    ∀ i, ∀ n ∈ (e i).2, z.offset i qs ≤ n

/-- A site in a trace is one in a longer trace. -/
theorem Sited.mono {tr tr' : Trace} {e : Side → Entry} (h : Sited z tr e) (htr : tr <:+ tr') :
    Sited z tr' e := by
  obtain ⟨older, g, qs, hmem, hrest⟩ := h
  exact ⟨older, g, qs, hmem.trans htr, hrest⟩

/-- The entries of two sides are paired. -/
def Paired (z : Respacing) (tr : Trace) (f : Side → List Entry) : Prop :=
  ∃ es : List (Side → Entry), (∀ i, f i = es.map (· i)) ∧ ∀ e ∈ es, Sited z tr e

namespace Paired

variable {tr tr' : Trace} {f g : Side → List Entry}

theorem nil (h : ∀ i, f i = []) : Paired z tr f :=
  ⟨[], h, by simp⟩

/-- Entries that are paired in two stretches are paired in both together. -/
theorem append (hf : Paired z tr f) (hg : Paired z tr g) :
    Paired z tr fun i ↦ f i ++ g i := by
  obtain ⟨es, hes, hsited⟩ := hf
  obtain ⟨es', hes', hsited'⟩ := hg
  refine ⟨es ++ es', fun i ↦ by simp [hes, hes'], fun e he ↦ ?_⟩
  rcases List.mem_append.1 he with he | he
  · exact hsited e he
  · exact hsited' e he

/-- Entries that are paired in a trace are paired in a longer one. -/
theorem mono (h : Paired z tr f) (htr : tr <:+ tr') : Paired z tr' f := by
  obtain ⟨es, hes, hsited⟩ := h
  exact ⟨es, hes, fun e he ↦ (hsited e he).mono htr⟩

/-- Pairing sees the entries and not where they are from. -/
theorem of_eq (h : Paired z tr f) (heq : ∀ i, g i = f i) : Paired z tr g := by
  obtain rfl : g = f := funext heq
  exact h

end Paired

/-! ### Trees -/

/-- From the joint state `j` on, both sides have read trees that look alike, up to `j'`. -/
structure Reads {α : Type} [Tree α] (z : Respacing) (j : Joint) (a : Side → α) (j' : Joint) :
    Prop where
  grows : Grows j j'
  alike : ∀ μ : Mode, μ.Allowed j' → Alike z μ a
  entries : j'.dirty = false → Paired z j'.trace fun i ↦ Tree.entries (a i)

namespace Reads

variable {α β γ : Type} [Tree α] [Tree β] [Tree γ] {a : Side → α} {b : Side → β}

/-- Nothing has been read. -/
theorem unit (h : Grows j j') : Reads z j (fun _ ↦ ()) j' :=
  ⟨h, fun _ _ _ ↦ rfl, fun _ ↦ .nil fun _ ↦ rfl⟩

/-- Something has been passed afterwards. -/
theorem trans (h : Reads z j a j') (hg : Grows j' j'') : Reads z j a j'' :=
  ⟨h.grows.trans hg, fun μ hμ ↦ h.alike μ (hμ.of_grows hg),
    fun hd ↦ (h.entries (hg.clean hd)).mono (hg.trace hd)⟩

/-- Something has been passed before. -/
theorem after (h : Reads z j' a j'') (hg : Grows j j') : Reads z j a j'' :=
  { h with grows := hg.trans h.grows }

/-- Two trees one after the other. -/
theorem pair (ha : Reads z j a j') (hb : Reads z j' b j'') :
    Reads z j (fun i ↦ (a i, b i)) j'' where
  grows := ha.grows.trans hb.grows
  alike μ hμ i := by
    have ha' := ha.alike μ (hμ.of_grows hb.grows) i
    have hb' := hb.alike μ hμ i
    rw [Tree.view_pair, Tree.view_pair, ha', hb']
  entries hd := by
    have ha' := (ha.entries (hb.grows.clean hd)).mono (hb.grows.trace hd)
    exact ha'.append (hb.entries hd)

/-- **Nodes.** A node is known from its children. -/
theorem node (h : Reads z j a j') (f : α → γ) {c : Side → γ}
    (hview : ∀ v i, Tree.view v (c i) = f (Tree.view v (a i)))
    (hentries : ∀ i, Tree.entries (c i) = Tree.entries (a i)) : Reads z j c j' where
  grows := h.grows
  alike μ hμ i := by rw [hview, hview, h.alike μ hμ i]
  entries hd := (h.entries hd).of_eq hentries

/-- A node without children. -/
theorem leaf (h : Grows j j') (d : γ) {c : Side → γ} (hview : ∀ v i, Tree.view v (c i) = d)
    (hentries : ∀ i, Tree.entries (c i) = []) : Reads z j c j' :=
  (unit h).node (fun _ ↦ d) hview hentries

theorem none (h : Grows j j') : Reads z j (fun _ ↦ (Option.none : Option α)) j' :=
  leaf h Option.none (fun _ _ ↦ rfl) fun _ ↦ rfl

theorem some (h : Reads z j a j') : Reads z j (fun i ↦ Option.some (a i)) j' :=
  h.node Option.some (fun _ _ ↦ rfl) fun _ ↦ Tree.entries_some _

theorem nil (h : Grows j j') : Reads z j (fun _ ↦ ([] : List α).reverse) j' :=
  leaf h [] (fun _ _ ↦ rfl) fun _ ↦ rfl

/-- One more element of a list that is kept in reverse. -/
theorem snoc {as : Side → List α} (ha : Reads z j (fun i ↦ (as i).reverse) j')
    (hb : Reads z j' a j'') : Reads z j (fun i ↦ (a i :: as i).reverse) j'' := by
  refine (ha.pair hb).node (fun p ↦ p.1 ++ [p.2]) (fun v i ↦ ?_) fun i ↦ ?_
  · simp
  · simp

/-- What was read may return to any scope. -/
theorem inScope (h : Reads z j a j') (scope : Scope) : Reads z j a { j' with scope := scope } :=
  h.trans (grows_refl _)

end Reads

/-! ### Expressions -/

/-- Whether the recorded end of an expression is that of a name. -/
def Expr.isNamed : Expr → Bool
  | .identifier _ _ | .member _ _ _ | .privateMember _ _ _ => true
  | _ => false

/-- Whether an expression is an operand behind `...`. -/
def Expr.isSpread : Expr → Bool
  | .spread _ _ => true
  | _ => false

/-- Both sides have read expressions whose ends are known. -/
structure Clear (z : Respacing) (j j' : Joint) (e : Side → Expr) : Prop where
  start : ∀ i, ∀ n ∈ (e i).start, z.offset i (j.last z) ≤ n ∧ n ≤ z.offset i (j'.last z)
  exact : ∃ b, (∀ i, (e i).endsExactly (z.source i) = b) ∧
    (b = true → Ended z (fun i ↦ (e i).stop) (j'.last z))
  named : (e .old).isNamed = true → Named z (fun i ↦ (e i).stop) (j'.last z)
  plain : (e .old).isSpread = false

/-- From the joint state `j` on, both sides have read expressions that look alike, up to `j'`. -/
structure ReadsExpr (z : Respacing) (j : Joint) (e : Side → Expr) (j' : Joint) : Prop
    extends Reads z j e j' where
  clear : j'.dirty = false → Clear z j j' e

namespace ReadsExpr

/-- An expression that was read may return to any scope. -/
theorem inScope {e : Side → Expr} (h : ReadsExpr z j e j') (scope : Scope) :
    ReadsExpr z j e { j' with scope := scope } :=
  ⟨h.toReads.inScope scope, fun hd ↦ { h.clear hd with }⟩

/-- What stands in for an expression after an error. -/
theorem bad {s : Side → Span} (h : j'.dirty = true) : ReadsExpr z j (fun i ↦ .bad (s i)) j' :=
  ⟨.leaf (grows_of_dirty h) (.bad default) (fun _ _ ↦ rfl) fun _ ↦ rfl,
    fun hd ↦ absurd hd (by simp [h])⟩

end ReadsExpr

end ColonGap.Script
