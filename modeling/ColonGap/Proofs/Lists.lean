import ColonGap.Proofs.Nodes

/-!
# Lists, on both sides

Comma expressions, array literals and argument lists.
-/

namespace ColonGap.Script

open Piece

variable {z : Respacing} {j : Joint}

namespace Spec

variable {g : Grammar}

/-- A comma expression is read alike. -/
theorem expression (hg : g.Even z) : Spec z j (fun _ ↦ Script.expression g) (ReadsExpr z j) := by
  unfold Script.expression
  refine of_sound fun hs ↦ bind (hg.expr .assignment j) fun first j1 hs1 hfirst ↦ isAt ?_
  split
  · refine bind (Q := ReadsItems z j) (loop (I := fun items ↦ ReadsItems z j fun i ↦ (items i).reverse)
      ?_ ?_ ?_) fun items j2 _ hitems ↦ pure hitems.sequence
    · intro items j2 hs2 hitems
      refine isAt ?_
      split
      · refine next fun j3 hs3 hp3 ↦ bind (hg.expr .assignment j3) fun e j4 hs4 he ↦ pure_inl ?_
        exact hitems.snoc hp3.grows hs3 he hs4
      · exact pure_inr hitems
    · exact (ReadsItems.nil (grows_refl j)).snoc (grows_refl j) hs hfirst hs1
    · exact fun j' hd ↦ .const hd _
  · exact pure hfirst

/-- An operand behind `...`, which is the current token. -/
theorem spread (hg : g.Even z) : Spec z j (fun _ ↦ Script.spread g) fun e j' ↦
    ∃ inner : Side → Expr, e = (fun i ↦ .spread (inner i).span (inner i)) ∧
      ∃ k, Sound z k ∧ Passed j k ∧ ReadsExpr z k inner j' :=
  next fun k hk hp ↦ bind (hg.expr .assignment k) fun inner _ _ hinner ↦
    pure ⟨inner, rfl, k, hk, hp, hinner⟩

/-- An element of an array that is no hole. -/
theorem element (hg : g.Even z) :
    Spec z j (fun _ ↦ if j.token == .ellipsis then Script.spread g else g.expr .assignment)
      fun e j' ↦ Reads z j e j' ∧
        (j'.dirty = false → RestAnchored z j' fun i ↦ some (e i)) := by
  refine of_sound fun hstart ↦ ?_
  split
  next hellipsis =>
    refine (spread hg).mono ?_
    rintro e j' hs ⟨inner, rfl, k, hk, hp, hinner⟩
    have hreads : Reads z j (fun i ↦ Expr.spread (inner i).span (inner i)) j' := by
      refine (hinner.toReads.after hp.grows).node (fun e ↦ .spread default e) (fun v i ↦ ?_) fun i ↦ ?_
      · simp [Expr.view]
      · simp [Tree.entries_expr, Expr.occurrences]
    refine ⟨hreads, fun hd place inner' heq ht ↦ ?_⟩
    obtain rfl : inner = inner' := funext fun i ↦ by
      have hi := congrFun heq i
      simp only [Option.some.injEq, Expr.spread.injEq] at hi
      exact hi.2
    rcases hg.tame with hshort | hdotless
    · exact (hinner.clear hd).anchored hshort ht
    · have hdots : j.token.spelling = some [46, 46, 46] := by rw [beq_iff_eq.1 hellipsis]; rfl
      obtain ⟨gs, hplace, hcodes⟩ := hstart.exists_glyphs hdots
      exact absurd hcodes (hdotless gs _ (hplace ▸ hstart.suffix))
  next =>
    refine (hg.expr .assignment j).mono fun e j' _ he ↦ ⟨he.toReads, fun hd place inner heq ↦ ?_⟩
    have hplain := (he.clear hd).plain
    have hold := congrFun heq .old
    rw [Option.some.inj hold] at hplain
    exact absurd hplain (by simp [Expr.isSpread])

/-- An array literal is read alike. -/
theorem arrayLiteral (hg : g.Even z) : Spec z j (fun _ ↦ Script.arrayLiteral g) (ReadsExpr z j) := by
  unfold Script.arrayLiteral
  refine of_sound fun hs ↦ expect fun j1 hs1 hp1 ht1 ↦ ?_
  refine bind (Q := ReadsElements z j1)
    (loop (I := fun els ↦ ReadsElements z j1 fun i ↦ (els i).reverse) ?_ (.nil (grows_refl _))
      fun j' hd ↦ ⟨.const hd _, by simp [hd]⟩) ?_
  · intro els j2 hs2 hels
    refine token ?_
    split
    · exact pure_inr hels
    · exact pure_inr hels
    · refine next fun j3 hs3 hp3 ↦ pure_inl (hels.snoc (.none hp3.grows) fun _ _ _ heq ↦ ?_)
      exact absurd (congrFun heq .old) (by simp)
    · dsimp only
      refine ite_bind (bind (element hg) fun e j3 hs3 he ↦ isAt ?_)
      have hmore : ∀ j4, Sound z j4 → Grows j3 j4 →
          ReadsElements z j1 (fun i ↦ (some (e i) :: els i).reverse) j4 := fun j4 hs4 hg4 ↦
        hels.snoc (he.1.trans hg4).some fun hd ↦ (he.2 (hg4.clean hd)).mono hs4 hg4 hd
      exact expectIf fun j4 hs4 hg4 ↦ pure_inl (hmore j4 hs4 hg4)
  · intro els j2 hs2 hels
    refine expect fun j3 hs3 hp3 ht3 ↦ pure (.closed ((hels.array hs2 hp3).after hp1.grows)
      (fun i ↦ ?_) rfl (fun hd ↦ ?_) fun hd ↦ ?_)
    · simp only [Expr.endsExactly]
    · exact hs.between hp1 hs3 (hels.grows.trans hp3.grows) hd
    · exact hs2.ended hp3 (by rw [ht3 hd]; rfl) (by decide)


/-- Arguments in parentheses, and the offset of the second one. -/
theorem argumentList (hg : g.Even z) :
    Spec z j (fun _ ↦ Script.argumentList g) fun r j' ↦ Reads z j (fun i ↦ (r i).1) j' ∧
      (j'.dirty = false → Ended z (fun i ↦ (r i).2 + 1) (j'.last z)) := by
  unfold Script.argumentList
  refine discard_expect fun j1 hs1 hp1 _ ↦ ?_
  refine bind (Q := Reads z j) (loop (I := fun items ↦ Reads z j fun i ↦ (items i).reverse) ?_
    (.nil hp1.grows) fun j' hd ↦ .const hd _) ?_
  · intro items j2 hs2 hitems
    refine isAt ?_
    split
    · exact pure_inr hitems
    · refine isAt ?_
      dsimp only
      refine ite_bind (bind (element hg) fun e j3 hs3 he ↦ isAt ?_)
      split
      · exact next fun j4 hs4 hp4 ↦ pure_inl (hitems.snoc (he.1.trans hp4.grows))
      · exact pure_inr (hitems.snoc he.1)
  · intro items j2 hs2 hitems
    refine expect fun j3 hs3 hp3 ht3 ↦ pure ⟨hitems.trans hp3.grows, fun hd ↦ ?_⟩
    exact hs2.ended hp3 (by rw [ht3 hd]; rfl) (by decide)

end Spec

end ColonGap.Script
