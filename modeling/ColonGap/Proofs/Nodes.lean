import ColonGap.Proofs.Bindings
import ColonGap.Script.Parser.Literal

/-!
# How nodes start and end

What is known about the parts of an expression tells where the expression starts and whether its
end is exact: it is closed by a token (`ReadsExpr.closed`), or it ends as its last part does
(`ReadsExpr.ending`). Lists of expressions and the elements of arrays have invariants of their own,
as the last of them matters to what comes later.
-/

namespace ColonGap.Script

open Piece

variable {z : Respacing} {j j' j'' k : Joint}

/-- The productions that are given go the same way on both sides. -/
structure Grammar.Even (z : Respacing) (g : Grammar) : Prop where
  tame : Tame z
  expr : ∀ goal j, Spec z j (fun _ ↦ g.expr goal) (ReadsExpr z j)
  stmt : ∀ j, Spec z j (fun _ ↦ g.stmt) (Reads z j)

/-- After an error, anything that is the same on both sides will do. -/
theorem Reads.const {α : Type} [Tree α] (h : j'.dirty = true) (a : α) : Reads z j (fun _ ↦ a) j' where
  grows := grows_of_dirty h
  alike μ hμ := by
    cases μ with
    | shape => exact fun _ ↦ rfl
    | commas => exact absurd (h.symm.trans hμ) (by simp)
    | bare => exact absurd (h.symm.trans hμ.1) (by simp)
  entries hd := absurd hd (by simp [h])

theorem ReadsExpr.const (h : j'.dirty = true) (e : Expr) : ReadsExpr z j (fun _ ↦ e) j' :=
  ⟨.const h e, fun hd ↦ absurd hd (by simp [h])⟩

/-! ### Starts and ends of nodes -/

/-- The end behind a token of one character. -/
theorem Sound.ended (hs : Sound z j) (hp : Passed j j') {c : Nat}
    (hc : j.token.spelling = some [c]) (hcode : c < 0x80) :
    Ended z (fun i ↦ z.offset i j.place + 1) (j'.last z) := by
  obtain ⟨g, hplace, rfl⟩ := hs.single hc
  have hsuffix := hs.suffix
  rw [hp.last_eq]
  refine ended_of_offset (hs.stop_suffix.trans hs.suffix) (hs.stop_ne hc) fun i ↦ ?_
  rw [hplace] at hsuffix ⊢
  exact (offset_same hsuffix hcode i).symm

/-- An offset lies between the token before `j` and the one before `j'`. -/
def Between (z : Respacing) (j j' : Joint) (start : Side → Option Nat) : Prop :=
  ∀ i, ∀ n ∈ start i, z.offset i (j.last z) ≤ n ∧ n ≤ z.offset i (j'.last z)

theorem Between.none : Between z j j' fun _ ↦ none :=
  fun _ _ hn ↦ nomatch hn

/-- What starts in a stretch starts in a longer one. -/
theorem Between.mono {start : Side → Option Nat} (h : Between z j j' start) (hs : Sound z j'')
    (hg : Grows j' j'') (hd : j''.dirty = false) : Between z j j'' start := fun i n hn ↦
  ⟨(h i n hn).1, (h i n hn).2.trans (hs.last_le hg hd i)⟩

theorem Between.after {start : Side → Option Nat} (h : Between z j' j'' start) (hs : Sound z j')
    (hg : Grows j j') (hd : j'.dirty = false) : Between z j j'' start := fun i n hn ↦
  ⟨(hs.last_le hg hd i).trans (h i n hn).1, (h i n hn).2⟩

/-- A token that was skipped to has its start in the stretch. -/
theorem Sound.between_of_skipped {rs : List Piece} (hj : Sound z j) (hp : Skipped j rs k)
    (hrs : rs <:+ j.place) (hj' : Sound z j') (hg : Grows k j') (hd : j'.dirty = false) :
    Between z j j' fun i ↦ some (z.offset i j.place) := by
  intro i n hn
  obtain rfl := Option.some.inj hn
  exact start_bounds hj hj' hp hrs hg hd i

theorem Sound.between (hj : Sound z j) (hp : Passed j k) (hj' : Sound z j') (hg : Grows k j')
    (hd : j'.dirty = false) : Between z j j' fun i ↦ some (z.offset i j.place) :=
  hj.between_of_skipped hp hj.stop_suffix hj' hg hd

/-- A token comes before the tokens that are passed later. -/
theorem Sound.between_of_grows {l : Joint} (hj : Sound z j) (hg : Grows j k) (hk : Sound z k)
    (hp : Passed k l) (hj' : Sound z j') (hg' : Grows l j') (hd : j'.dirty = false) :
    Between z j j' fun i ↦ some (z.offset i j.place) := by
  intro i n hn
  obtain rfl := Option.some.inj hn
  have hclean := (hp.grows.trans hg').clean hd
  have hstart := hj.follows (hg.clean hclean)
  have hend := hj'.last_suffix hg' hd
  rw [hp.last_eq] at hend
  have hplace : j'.last z <:+ j.place := hend.trans (hk.stop_suffix.trans (hg.place hclean))
  exact ⟨Respacing.offset_le_of_suffix hstart.suffix (hj.last_pieces (hg.clean hclean)) i,
    Respacing.offset_le_of_suffix hplace hj.suffix i⟩

/-- An expression that is neither a name or an access to one, nor an operand behind `...`. -/
def Expr.isCompound (e : Expr) : Bool :=
  !e.isNamed && !e.isSpread

theorem isCompound_iff (e : Expr) :
    e.isCompound = true ↔ e.isNamed = false ∧ e.isSpread = false := by
  simp [Expr.isCompound]

namespace ReadsExpr

variable {e part : Side → Expr}

theorem between (h : ReadsExpr z j e j') (hs : Sound z j'') (hg : Grows j' j'')
    (hd : j''.dirty = false) : Between z j j'' fun i ↦ (e i).start :=
  Between.mono (h.clear (hg.clean hd)).start hs hg hd

/-- An expression whose end is always exact. -/
theorem closed (h : Reads z j e j') (hexact : ∀ i, (e i).endsExactly (z.source i) = true)
    (hform : (e .old).isCompound = true)
    (hstart : j'.dirty = false → Between z j j' fun i ↦ (e i).start)
    (hended : j'.dirty = false → Ended z (fun i ↦ (e i).stop) (j'.last z)) : ReadsExpr z j e j' :=
  ⟨h, fun hd ↦ ⟨hstart hd, ⟨true, hexact, fun _ ↦ hended hd⟩,
    fun hn ↦ absurd hn (by simp [(isCompound_iff _).1 hform]), ((isCompound_iff _).1 hform).2⟩⟩

/-- An expression that ends as its last part does. -/
theorem ending (h : Reads z j e j') (hpart : ReadsExpr z k part j')
    (hexact : ∀ i, (e i).endsExactly (z.source i) = (part i).endsExactly (z.source i))
    (hstop : ∀ i, (e i).stop = (part i).stop) (hform : (e .old).isCompound = true)
    (hstart : j'.dirty = false → Between z j j' fun i ↦ (e i).start) : ReadsExpr z j e j' := by
  rw [isCompound_iff] at hform
  refine ⟨h, fun hd ↦ ⟨hstart hd, ?_, fun hn ↦ absurd hn (by simp [hform]), hform.2⟩⟩
  obtain ⟨b, hb, hended⟩ := (hpart.clear hd).exact
  refine ⟨b, fun i ↦ (hexact i).trans (hb i), fun htrue ↦ ?_⟩
  simp only [hstop]
  exact hended htrue

end ReadsExpr

/-! ### Lists of expressions -/

/-- A list of expressions ends as its last one does. -/
theorem lastEndsExactly_append (source : Bytes) (absent : Bool) (items : List Expr) (e : Expr) :
    lastEndsExactly source absent (items ++ [e]) = e.endsExactly source := by
  induction items generalizing absent with
  | nil => rfl
  | cons x items ih => exact ih _

/-- Both sides have read some expressions; where the first one starts and the last one ends is
known. -/
structure ReadsItems (z : Respacing) (j : Joint) (items : Side → List Expr) (j' : Joint) : Prop
    extends Reads z j items j' where
  start : j'.dirty = false → Between z j j' fun i ↦ (items i).head?.bind Expr.start
  exact : j'.dirty = false → ∃ b, (∀ i, lastEndsExactly (z.source i) false (items i) = b) ∧
    (b = true → Ended z (fun i ↦ ((items i).getLast?.map Expr.stop).getD 0) (j'.last z))

namespace ReadsItems

variable {items : Side → List Expr} {e : Side → Expr}

theorem nil (h : Grows j j') : ReadsItems z j (fun _ ↦ ([] : List Expr).reverse) j' :=
  ⟨.nil h, fun _ ↦ Between.none, fun _ ↦ ⟨false, fun _ ↦ rfl, by simp⟩⟩

/-- One more expression behind a list that is kept in reverse. -/
theorem snoc (h : ReadsItems z j (fun i ↦ (items i).reverse) j') (hg : Grows j' k) (hs : Sound z k)
    (he : ReadsExpr z k e j'') (hs' : Sound z j'') :
    ReadsItems z j (fun i ↦ (e i :: items i).reverse) j'' := by
  refine ⟨h.toReads.snoc (he.toReads.after hg), fun hd i n hn ↦ ?_, fun hd ↦ ?_⟩
  · have hclean := he.grows.clean hd
    have hold := (h.start (hg.clean hclean)).mono hs' (hg.trans he.grows) hd i n
    have hnew := Between.after (he.clear hd).start hs (h.grows.trans hg) hclean i n
    simp only [List.reverse_cons] at hn
    cases hitems : (items i).reverse with
    | nil => exact hnew (by simpa [hitems] using hn)
    | cons x xs => exact hold (by simpa [hitems] using hn)
  · obtain ⟨b, hb, hended⟩ := (he.clear hd).exact
    refine ⟨b, fun i ↦ ?_, fun htrue ↦ ?_⟩
    · rw [List.reverse_cons, lastEndsExactly_append, hb]
    · simpa using hended htrue

theorem const (h : j'.dirty = true) (items : List Expr) : ReadsItems z j (fun _ ↦ items) j' :=
  ⟨.const h _, by simp [h], by simp [h]⟩

/-- The items as one expression. -/
theorem sequence (h : ReadsItems z j items j') : ReadsExpr z j (fun i ↦ sequenceOf (items i)) j' := by
  refine ⟨h.toReads.node (fun items ↦ .sequence default items) (fun v i ↦ ?_) fun i ↦ ?_, fun hd ↦
    ⟨h.start hd, ?_, nofun, rfl⟩⟩
  · simp [sequenceOf, Expr.view]
  · simp [Tree.entries_expr, sequenceOf, Expr.occurrences]
  · obtain ⟨b, hb, hended⟩ := h.exact hd
    exact ⟨b, fun i ↦ by simpa only [sequenceOf, Expr.endsExactly] using hb i, hended⟩

end ReadsItems

/-! ### Arrays -/

/-- What anchors the end of an expression still does when less text is left. -/
theorem Anchored.mono {stop : Side → Nat} {rs qs : List Piece} (h : Anchored z stop rs)
    (hqs : qs <:+ rs) : Anchored z stop qs := by
  rcases h with h | ⟨gs, ps, n, hps, hrs, hn, hstop⟩
  · exact .inl h
  · exact .inr ⟨gs, ps, n, hps, hqs.trans hrs, hn, hstop⟩

/-- The end of a target that was read clearly is anchored at the last token. -/
theorem Clear.anchored {e : Side → Expr} (h : Clear z j j' e) (hz : Short z)
    (ht : ∀ i, (e i).isTargetable = true) : Anchored z (fun i ↦ (e i).stop) (j'.last z) := by
  cases hnamed : (e .old).isNamed with
  | true => exact (h.named hnamed).anchored hz
  | false =>
    -- What can be a target and is not named ends exactly.
    obtain ⟨b, hb, hended⟩ := h.exact
    have htrue : b = true := by
      have hold := ht .old
      rw [← hb .old]
      cases heq : e .old with
      | identifier | member | privateMember => simp [heq, Expr.isNamed] at hnamed
      | index | array | object | arrayPattern | objectPattern => simp only [Expr.endsExactly]
      | _ => simp [heq, Expr.isTargetable] at hold
    exact (hended htrue).anchored

/-- The operand of an element `...` that can be a target is anchored. -/
def RestAnchored (z : Respacing) (j : Joint) (e : Side → Option Expr) : Prop :=
  ∀ (place : Side → Span) (inner : Side → Expr), e = (fun i ↦ some (.spread (place i) (inner i))) →
    (∀ i, (inner i).isTargetable = true) → Anchored z (fun i ↦ (inner i).stop) (j.last z)

/-- Both sides have read elements of an array. -/
structure ReadsElements (z : Respacing) (j : Joint) (els : Side → List (Option Expr)) (j' : Joint) :
    Prop extends Reads z j els j' where
  rest : j'.dirty = false → ∀ (es : Side → List (Option Expr)) (e : Side → Option Expr),
    els = (fun i ↦ es i ++ [e i]) → RestAnchored z j' e

/-- The mark of an array is that of its last element. -/
theorem View.markOf_snoc (v : View) (sp : Span) (els : List (Option Expr)) (e : Option Expr) :
    v.markOf sp (els ++ [e]) = v.markOf sp [e] := by
  induction els with
  | nil => rfl
  | cons x els ih =>
    rw [← ih, List.cons_append]
    cases hels : els ++ [e] with
    | nil => simp at hels
    | cons y ys =>
      rw [View.markOf]
      simp

/-- A view that marks nothing marks no array. -/
theorem View.markOf_of_mark {v : View} (h : ∀ sp e, v.mark sp e = false) (sp : Span) :
    ∀ els, v.markOf sp els = false
  | [] => rfl
  | e :: els => by
    unfold View.markOf
    split
    · rfl
    · exact h _ _
    · next heq =>
      obtain ⟨-, rfl⟩ := List.cons.inj heq
      exact View.markOf_of_mark h sp _

theorem Alike.reverse {α : Type} [Tree α] {μ : Mode} {as : Side → List α} (h : Alike z μ as) :
    Alike z μ fun i ↦ (as i).reverse := fun i ↦ by
  simpa [List.map_reverse] using congrArg List.reverse (h i)

/-- Lists that look alike are empty, or have last items that do. -/
theorem Alike.concat {α : Type} [Tree α] {μ : Mode} {as : Side → List α} (h : Alike z μ as) :
    as = (fun _ ↦ []) ∨ ∃ (init : Side → List α) (a : Side → α), as = (fun i ↦ init i ++ [a i]) ∧
      Alike z μ a := by
  rcases h.reverse.list with hnil | ⟨a, init, hcons, ha, -⟩
  · exact .inl (funext fun i ↦ by simpa using congrFun hnil i)
  · refine .inr ⟨fun i ↦ (init i).reverse, a, funext fun i ↦ ?_, ha⟩
    simpa using congrArg List.reverse (congrFun hcons i)

/-- A stretch has a comma exactly if one stands in it. -/
theorem hasComma_iff (source : Bytes) (start stop : Nat) :
    hasComma source start stop = true ↔ 44 ∈ source.slice start stop := by
  unfold hasComma
  induction source.slice start stop with
  | nil => simp [Bytes.indexOf?]
  | cons b rest ih =>
    rw [Bytes.indexOf?]
    by_cases hb : b = 44
    · simp [hb]
    · simp only [List.isPrefixOf, beq_iff_eq, Ne.symm hb, Bool.and_true]
      simp [ih, Ne.symm hb]

/-- A comma behind the rest element is found on both sides or on neither. -/
theorem RestAnchored.markOf_eq {e : Side → Option Expr} (h : RestAnchored z j e)
    (hshape : Alike z .shape e) (hs : Sound z j) (hd : j.dirty = false) {start : Side → Option Nat}
    (i : Side) :
    (View.commas (z.source i)).markOf ⟨start i, z.offset i j.place + 1⟩ [e i]
      = (View.commas (z.source .old)).markOf ⟨start .old, z.offset .old j.place + 1⟩ [e .old] := by
  obtain rfl | ⟨x, rfl, hx⟩ := hshape.option
  · rfl
  obtain ⟨place, inner, rfl⟩ | hne := hx.spread_or_not
  · have hinner := alike_spread.1 hx
    simp only [View.markOf, View.commas, Nat.add_sub_cancel, hinner.isTargetable i]
    cases ht : (inner .old).isTargetable with
    | false => rfl
    | true =>
      have hanchored := h place inner rfl fun i ↦ (hinner.isTargetable i).trans ht
      have hmem := hanchored.mem_slice_iff (hs.last_pieces hd) (hs.follows hd).suffix
        (c := 44) (by decide) (by decide) i
      rw [Bool.true_and, Bool.true_and, Bool.eq_iff_iff]
      exact (hasComma_iff _ _ _).trans (hmem.trans (hasComma_iff _ _ _).symm)
  · rw [View.markOf_some _ _ _ (hne _), View.markOf_some _ _ _ (hne _)]
    rfl

/-- **Arrays.** The elements in brackets, the second of which is the current token. -/
theorem ReadsElements.array {start : Side → Option Nat} {els : Side → List (Option Expr)}
    (h : ReadsElements z j els j') (hs : Sound z j') (hp : Passed j' j'') :
    Reads z j (fun i ↦ Expr.array ⟨start i, z.offset i j'.place + 1⟩ (els i)) j'' where
  grows := h.grows.trans hp.grows
  alike μ hμ := by
    refine alike_array.2 ⟨?_, h.alike μ (hμ.of_grows hp.grows)⟩
    cases μ with
    | shape | bare =>
      intro i
      rw [View.markOf_of_mark fun _ _ ↦ rfl, View.markOf_of_mark fun _ _ ↦ rfl]
    | commas =>
      have hd : j'.dirty = false := hp.clean hμ
      obtain rfl | ⟨es, e, rfl, he⟩ := (h.alike .shape trivial).concat
      · exact fun _ ↦ rfl
      intro i
      simp only [View.markOf_snoc]
      exact (h.rest hd es e rfl).markOf_eq he hs hd i
  entries hd := by
    have hentries := (h.entries (hp.clean hd)).mono (hp.grows.trace hd)
    refine hentries.of_eq fun i ↦ ?_
    simp only [Tree.entries_expr, Expr.occurrences, Tree.entries_inElements]

theorem ReadsElements.nil (h : Grows j j') :
    ReadsElements z j (fun _ ↦ ([] : List (Option Expr)).reverse) j' :=
  ⟨.nil h, fun _ _ _ heq ↦ absurd (congrFun heq .old) (by simp)⟩

/-- One more element behind a list that is kept in reverse. -/
theorem ReadsElements.snoc {els : Side → List (Option Expr)} {e : Side → Option Expr}
    (h : ReadsElements z j (fun i ↦ (els i).reverse) j') (he : Reads z j' e j'')
    (hrest : j''.dirty = false → RestAnchored z j'' e) :
    ReadsElements z j (fun i ↦ (e i :: els i).reverse) j'' := by
  refine ⟨h.toReads.snoc he, fun hd es e' heq ↦ ?_⟩
  obtain rfl : e = e' := funext fun i ↦ by
    have hi := congrFun heq i
    simp only [List.reverse_cons] at hi
    exact List.singleton_inj.1 (List.append_inj_right' hi rfl)
  exact hrest hd

theorem RestAnchored.mono {e : Side → Option Expr} (h : RestAnchored z j e) (hs : Sound z j')
    (hg : Grows j j') (hd : j'.dirty = false) : RestAnchored z j' e := fun place inner heq ht ↦
  (h place inner heq ht).mono (hs.last_suffix hg hd)

namespace Spec

/-- A choice that both sides make alike. -/
theorem choice {α : Type} {c : Prop} {dec : Side → Decidable c} {m m' : Side → Parse α}
    {R : (Side → α) → Joint → Prop} (h : c → Spec z j m R) (h' : ¬ c → Spec z j m' R) :
    Spec z j (fun i ↦ @ite _ c (dec i) (m i) (m' i)) R := by
  by_cases hc : c
  · simpa only [hc, if_true] using h hc
  · simpa only [hc, if_false] using h' hc

/-- An error is noted, or not, before both choices go on. -/
theorem noteIf {β : Type} {c : Prop} {dec : Side → Decidable c} {place : Side → Option Nat}
    {cause : Side → Cause} {m : Side → Parse β} {R : (Side → β) → Joint → Prop}
    (h : ∀ dirty, (dirty = false → j.dirty = false) → Spec z { j with dirty := dirty } m R) :
    Spec z j (fun i ↦ @ite _ c (dec i) (Parse.note (place i) (cause i) >>= fun _ ↦ m i) (m i)) R :=
  choice (fun _ ↦ note (h true (by simp))) fun _ ↦ h j.dirty id

/-- A token is reported, or not, before both choices go on. -/
theorem unexpectedIf {β : Type} {c : Prop} {dec : Side → Decidable c} {t : Token}
    {m : Side → Parse β} {R : (Side → β) → Joint → Prop}
    (h : ∀ dirty, (dirty = false → j.dirty = false) → Spec z { j with dirty := dirty } m R) :
    Spec z j (fun i ↦ @ite _ c (dec i) (Parse.unexpected t >>= fun _ ↦ m i) (m i)) R :=
  choice (fun _ ↦ unexpected (h true (by simp))) fun _ ↦ h j.dirty id

/-- A token is passed, or not, before both choices go on. -/
theorem nextIf {β : Type} {c : Prop} {dec : Side → Decidable c} {m : Side → Parse β}
    {R : (Side → β) → Joint → Prop}
    (h : ∀ j', Sound z j' → Grows j j' → Spec z j' m R) :
    Spec z j (fun i ↦ @ite _ c (dec i) (Parse.next >>= fun _ ↦ m i) (m i)) R :=
  choice (fun _ ↦ next fun j' hs' hp ↦ h j' hs' hp.grows) fun _ ↦ of_sound fun hs ↦
    h j hs (grows_refl j)

/-- A token is asked for, or not, before both choices go on. -/
theorem expectIf {β : Type} {c : Prop} {dec : Side → Decidable c} {t : Token} {m : Side → Parse β}
    {R : (Side → β) → Joint → Prop}
    (h : ∀ j', Sound z j' → Grows j j' → Spec z j' m R) :
    Spec z j (fun i ↦ @ite _ c (dec i) (discard (Parse.expect t) >>= fun _ ↦ m i) (m i)) R :=
  choice (fun _ ↦ discard_expect fun j' hs' hp _ ↦ h j' hs' hp.grows) fun _ ↦ of_sound fun hs ↦
    h j hs (grows_refl j)

/-- A step that is chosen before what both choices go on with. -/
theorem ite_bind {α β : Type} {c : Prop} [Decidable c] {m m' : Side → Parse α}
    {f : Side → α → Parse β} {R : (Side → β) → Joint → Prop}
    (h : Spec z j (fun i ↦ (if c then m i else m' i) >>= f i) R) :
    Spec z j (fun i ↦ if c then m i >>= f i else m' i >>= f i) R := by
  by_cases hc : c
  · simpa only [hc, if_true] using h
  · simpa only [hc, if_false] using h

end Spec

end ColonGap.Script
