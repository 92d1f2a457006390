import ColonGap.Proofs.Objects
import ColonGap.Script.Parser.Expression

/-!
# Operands, on both sides

Accesses, calls, `new` and the operands they start from.

A chain with `?.` is the one place where an expression is open for a moment: behind `?.` and before
a bracket, what has been read does not end where the last token ends. `ReadsOpen` is what is known
then; it is enough for the access or call that follows.
-/

namespace ColonGap.Script

open Piece

variable {z : Respacing} {j j' j'' k : Joint}

/-! ### Open expressions -/

/-- Both sides have read expressions; where they end is not known. -/
structure ReadsOpen (z : Respacing) (j : Joint) (e : Side → Expr) (j' : Joint) : Prop
    extends Reads z j e j' where
  start : j'.dirty = false → Between z j j' fun i ↦ (e i).start

theorem ReadsExpr.open {e : Side → Expr} (h : ReadsExpr z j e j') : ReadsOpen z j e j' :=
  ⟨h.toReads, fun hd ↦ (h.clear hd).start⟩

/-- After an error, where an expression ends does not matter. -/
theorem Reads.expr {e : Side → Expr} (h : Reads z j e j') (hd : j'.dirty = true) :
    ReadsExpr z j e j' :=
  ⟨h, fun hclean ↦ absurd hclean (by simp [hd])⟩

/-- No growth takes an error back. -/
theorem Grows.dirty (h : Grows j j') (hd : j.dirty = true) : j'.dirty = true := by
  cases hd' : j'.dirty with
  | true => rfl
  | false => exact absurd (h.clean hd') (by simp [hd])

/-! ### Names behind a mark -/

/-- Every character is written with some byte. -/
theorem encode_ne_nil (code : Nat) : Utf8.encode code ≠ [] := by
  unfold Utf8.encode
  split
  · simp
  split
  · simp
  split
  · simp
  split <;> simp

/-- A word of some length has a name of some length. -/
theorem one_le_nameLength {w : Word} {gs : List Scalar} (hword : Word.measure 0 true gs = w)
    (hform : w.wellFormed = true) (hcount : w.count ≠ 0) : 1 ≤ nameLength w.name := by
  have hname : w.name ≠ [] := by
    subst hword
    cases gs with
    | nil => exact absurd rfl hcount
    | cons g gs =>
      rcases Word.cases_of_wellFormed hform with
        ⟨code, length, -, -, -, -, hmeasure⟩ | ⟨-, -, -, hmeasure⟩ | ⟨-, -, hmeasure⟩
      · rw [hmeasure]
        exact List.append_ne_nil_of_left_ne_nil (encode_ne_nil code) _
      · rw [hmeasure]
        exact List.append_ne_nil_of_left_ne_nil (encode_ne_nil g.code) _
      · rw [hmeasure] at hcount
        exact absurd rfl hcount
  have hpos := List.length_pos_iff.2 hname
  simp only [nameLength, Parse.nameSpan]
  split <;> omega

/-- The recorded end of a private name is one short. -/
theorem Lexes.named {x : Side → Lexeme} {t : Token} {ps qs : List Piece} (h : Lexes z x t ps qs)
    (ht : t = .privateName) {stop : Side → Nat}
    (hstop : ∀ i, stop i = (Parse.nameSpan (x i).start (x i).name).stop) : Named z stop qs := by
  have hsuffix := h.suffix
  have hstart := h.start
  subst ht
  cases h.spelt with
  | @privateName g gs qs w hg hgs hword hform hcount hname =>
    have hbehind := (List.suffix_cons _ _).trans hsuffix
    refine ⟨gs, qs, w, 1, hbehind, hword, hform, hcount, ?_, fun i ↦ ?_, List.suffix_rfl, fun _ ↦ .refl⟩
    · refine one_le_nameLength (hword .old) hform ?_
      rw [hcount]
      exact fun hzero ↦ hgs (List.length_eq_zero_iff.1 hzero)
    · rw [hstop, nameSpan_eq, hstart, hname, offset_same hsuffix (by omega)]
      dsimp only
      omega
  | word hname => exact absurd hname (by decide)
  | mark hs => exact absurd (isKey_of_mem_punctuators _ hs) (by simp [Token.isKey])

/-! ### Accesses -/

/-- An access by a name is read alike. -/
theorem ReadsOpen.member {left : Side → Expr} (h : ReadsOpen z j left j') (hg : Grows j' k)
    (hp : Passed k j'') (hs : Sound z j'') {x : Side → Lexeme}
    (hx : Lexes z x k.token k.place k.stop) (ht : k.token.isName = true) :
    ReadsExpr z j (fun i ↦ .member ⟨(left i).start, (Parse.nameSpan (x i).start (x i).name).stop⟩
      (left i) (x i).name) j'' := by
  obtain ⟨name, hname⟩ := hx.spelt.name
  obtain ⟨hexact, hnamed⟩ := hx.ends ht fun _ ↦ rfl
  rw [← hp.last_eq (z := z)] at hexact hnamed
  have hgrows := hg.trans hp.grows
  refine ⟨(h.toReads.trans hgrows).node (fun left ↦ .member default left name) (fun v i ↦ ?_) fun i ↦ ?_,
    fun hd ↦ ⟨(h.start (hgrows.clean hd)).mono hs hgrows hd, ?_, fun _ ↦ hnamed, rfl⟩⟩
  · simp [Expr.view, hname]
  · simp [Tree.entries_expr, Expr.occurrences]
  · obtain ⟨b, hb, hended⟩ := hexact
    exact ⟨b, fun i ↦ by simpa only [Expr.endsExactly] using hb i, hended⟩

/-- A reserved word of a known length is an operand. -/
theorem Sound.readsKeyword (hs : Sound z j) (hp : Passed j j') (hs' : Sound z j') {n : Nat}
    (hn : j.token.isOfLength n = true) (make : Span → Expr)
    (hmake : ∀ sp, (∀ v, (make sp).view v = make default) ∧ entriesOf (make sp).occurrences = [] ∧
      (∀ source, (make sp).endsExactly source = true) ∧ (make sp).isCompound = true ∧
      (make sp).span = sp) :
    ReadsExpr z j (fun i ↦ make ⟨z.offset i j.place, z.offset i j.place + n⟩) j' := by
  refine .closed (.leaf hp.grows (make default) (fun v i ↦ (hmake _).1 v) fun i ↦ (hmake _).2.1)
    (fun i ↦ (hmake _).2.2.1 _) (hmake _).2.2.2.1 (fun hd ↦ ?_) fun hd ↦ ?_
  · simp only [Expr.start, (hmake _).2.2.2.2]
    exact hs.between hp hs' (grows_refl _) hd
  · simp only [Expr.stop, (hmake _).2.2.2.2]
    exact hs.endedWord hp hn

namespace Spec

variable {g : Grammar}

/-- An access behind a point, which is the current token. -/
theorem dotMember {left : Side → Expr} (h : ReadsOpen z k left j) :
    Spec z j (fun i ↦ Script.dotMember (left i)) (ReadsExpr z k) := by
  unfold Script.dotMember
  refine here (next fun j1 hs1 hp1 ↦ lexeme fun x hx ↦ ?_)
  simp only [hx.token]
  refine choice (fun ht ↦ ?_) fun _ ↦ choice (fun ht ↦ ?_) fun hne ↦ ?_
  · refine next fun j2 hs2 hp2 ↦ pure ?_
    obtain ⟨name, hname⟩ := hx.spelt.name
    have hnamed := hx.named (beq_iff_eq.1 ht) fun _ ↦ rfl
    rw [← hp2.last_eq (z := z)] at hnamed
    have hgrows := hp1.grows.trans hp2.grows
    refine ⟨(h.toReads.trans hgrows).node (fun left ↦ .privateMember default left name)
      (fun v i ↦ ?_) fun i ↦ ?_, fun hd ↦
      ⟨(h.start (hgrows.clean hd)).mono hs2 hgrows hd, ⟨false, fun i ↦ ?_, by simp⟩, fun _ ↦ hnamed, rfl⟩⟩
    · simp [Expr.view, hname]
    · simp [Tree.entries_expr, Expr.occurrences]
    · simp only [Expr.endsExactly]
  · exact next fun j2 hs2 hp2 ↦ pure (h.member hp1.grows hp2 hs2 hx ht)
  · refine discard_expect fun j2 _ _ ht2 ↦ skipFrom (dirty_of_ne ht2 fun ht ↦ hne ?_)
    rw [ht]
    rfl

/-- An access in brackets. -/
theorem bracketMember (hg : g.Even z) {left : Side → Expr} (h : ReadsOpen z k left j) :
    Spec z j (fun i ↦ Script.bracketMember g (left i)) (ReadsExpr z k) := by
  unfold Script.bracketMember
  refine discard_expect fun j1 _ hp1 _ ↦ bind (expression hg) fun key j2 hs2 hkey ↦ ?_
  refine expect fun j3 hs3 hp3 ht3 ↦ pure ?_
  have hgrows := hp1.grows.trans (hkey.grows.trans hp3.grows)
  refine .closed ?_ (fun i ↦ ?_) rfl (fun hd ↦ (h.start (hgrows.clean hd)).mono hs3 hgrows hd) fun hd ↦ ?_
  · refine (h.toReads.pair ((hkey.toReads.after hp1.grows).trans hp3.grows)).node
      (fun p ↦ .index default p.1 p.2) (fun v i ↦ ?_) fun i ↦ ?_
    · simp [Expr.view]
    · simp [Tree.entries_expr, Expr.occurrences]
  · simp only [Expr.endsExactly]
  · exact hs2.ended hp3 (by rw [ht3 hd]; rfl) (by decide)

/-- A call. -/
theorem callOf (hg : g.Even z) {left : Side → Expr} (h : ReadsOpen z k left j) :
    Spec z j (fun i ↦ Script.callOf g (left i)) (ReadsExpr z k) := by
  unfold Script.callOf
  refine bind (argumentList hg) ?_
  rintro r j1 hs1 ⟨hr, hended⟩
  refine pure (.closed ?_ (fun i ↦ ?_) rfl
    (fun hd ↦ (h.start (hr.grows.clean hd)).mono hs1 hr.grows hd) hended)
  · refine (h.toReads.pair hr).node (fun p ↦ .call default p.1 p.2) (fun v i ↦ ?_) fun i ↦ ?_
    · simp [Expr.view]
    · simp [Tree.entries_expr, Expr.occurrences]
  · simp only [Expr.endsExactly]

/-- An operand that starts with `super` is read alike. -/
theorem superOperand (hg : g.Even z) (ht : j.token = .superWord) :
    Spec z j (fun _ ↦ Script.superOperand g) (ReadsExpr z j) := by
  unfold Script.superOperand
  refine of_sound fun hs ↦ here (next fun j1 hs1 hp1 ↦ ?_)
  have hsuper := hs.readsKeyword hp1 hs1 (n := 5) (by rw [ht]; decide) .super fun sp ↦
    ⟨fun _ ↦ rfl, rfl, fun _ ↦ by simp only [Expr.endsExactly], rfl, rfl⟩
  refine token ?_
  split
  · refine next fun j2 hs2 hp2 ↦ lexeme fun x hx ↦ ?_
    simp only [hx.token]
    refine choice (fun hname ↦ ?_) fun hne ↦ ?_
    · exact next fun j3 hs3 hp3 ↦ pure (hsuper.open.member hp2.grows hp3 hs3 hx hname)
    · refine discard_expect fun j3 _ _ ht3 ↦ skipFrom (dirty_of_ne ht3 fun ht ↦ hne ?_)
      rw [ht]
      rfl
  · exact bracketMember hg hsuper.open
  · exact callOf hg hsuper.open
  · exact note (skipFrom rfl)

end Spec

/-! ### Parentheses -/

/-- Both sides have read what stands between parentheses, kept in reverse. -/
structure ReadsParenthesized (z : Respacing) (j : Joint) (items : Side → List Expr) (j' : Joint) :
    Prop where
  list : ReadsItems z j (fun i ↦ (items i).reverse) j'
  single : ∀ item : Side → Expr, items = (fun i ↦ [item i]) → ReadsExpr z j item j'

/-- After an error, where the items start and end does not matter. -/
theorem Reads.items {items : Side → List Expr} (h : Reads z j items j') (hd : j'.dirty = true) :
    ReadsItems z j items j' :=
  ⟨h, fun hclean ↦ absurd hclean (by simp [hd]), fun hclean ↦ absurd hclean (by simp [hd])⟩

namespace ReadsParenthesized

variable {items : Side → List Expr} {item : Side → Expr}

theorem nil (h : Grows j j') : ReadsParenthesized z j (fun _ ↦ []) j' :=
  ⟨.nil h, fun _ heq ↦ absurd (congrFun heq .old) (by simp)⟩

/-- An item behind others is read in parentheses as it would be elsewhere. -/
theorem snoc (h : ReadsItems z j (fun i ↦ (items i).reverse) j') (hg : Grows j' k) (hs : Sound z k)
    (hi : ReadsExpr z k item j'') (hs' : Sound z j'') :
    ReadsParenthesized z j (fun i ↦ item i :: items i) j'' := by
  refine ⟨h.snoc hg hs hi hs', fun item' heq ↦ ?_⟩
  obtain rfl : item = item' := funext fun i ↦ (List.cons.inj (congrFun heq i)).1
  exact hi.after hs (h.grows.trans hg)

theorem noted (h : ReadsParenthesized z j items j') (hd : k.dirty = true) :
    ReadsParenthesized z j items k :=
  ⟨(h.list.toReads.trans (grows_of_dirty hd)).items hd, fun item heq ↦
    ((h.single item heq).toReads.trans (grows_of_dirty hd)).expr hd⟩

end ReadsParenthesized

/-- A closing bracket behind a name. -/
theorem Sound.closeName {stop : Side → Nat} {c : Nat} (hs : Sound z j) (hp : Passed j j')
    (hc : j.token.spelling = some [c]) (hclosing : c = 93 ∨ c = 41) (hd : j.dirty = false)
    (hne : j.last z ≠ z.pieces) (h : Named z stop (j.last z)) : Named z stop (j'.last z) := by
  obtain ⟨g, hplace, rfl⟩ := hs.single hc
  have hfollows := hs.follows hd
  have hjoined := hfollows.joined (by simp [hplace]) hne
  rw [hp.last_eq]
  exact h.close (hplace ▸ hfollows.suffix) (hplace ▸ hjoined) hclosing

/-- **Parentheses.** An expression in parentheses starts and ends as it does without them. -/
theorem ReadsExpr.parenthesized {item : Side → Expr} (hj : Sound z j) (hp : Passed j k)
    (ht : k.dirty = false → j.token = .leftParen) (h : ReadsExpr z k item j') (hk : Sound z k)
    (hj' : Sound z j') (hp' : Passed j' j'') (ht' : j''.dirty = false → j'.token = .rightParen)
    (hs : Sound z j'') : ReadsExpr z j item j'' := by
  refine ⟨(h.toReads.after hp.grows).trans hp'.grows, fun hd ↦ ?_⟩
  have hd' := hp'.clean hd
  have hclear := h.clear hd'
  have hopen : j.token.spelling = some [40] := by rw [ht (h.grows.clean hd')]; rfl
  have hclose : j'.token.spelling = some [41] := by rw [ht' hd]; rfl
  have hmoved : j'.last z ≠ z.pieces := by
    have hsuffix := hj'.last_suffix h.grows hd'
    rw [hp.last_eq] at hsuffix
    exact ne_pieces_of_suffix hsuffix (hj.stop_suffix.trans hj.suffix) (hj.stop_ne hopen)
  refine ⟨?_, ?_, fun hnamed ↦ ?_, hclear.plain⟩
  · exact (h.between hs hp'.grows hd).after hk hp.grows (h.grows.clean hd')
  · obtain ⟨b, hb, hended⟩ := hclear.exact
    exact ⟨b, hb, fun htrue ↦ hj'.close hp' hclose (.inr rfl) hd' (hended htrue)⟩
  · exact hj'.closeName hp' hclose (.inr rfl) hd' hmoved (hclear.named hnamed)

theorem isName_of_allows {reserved : Reserved} {t : Token} (h : reserved.allows t = true) :
    t.isName = true := by
  cases t <;> first | rfl | cases h

/-- A class is an expression. -/
theorem ReadsClass.expr {c : Side → Class} (h : ReadsClass z j c j') :
    ReadsExpr z j (fun i ↦ .classExpr (c i)) j' := by
  refine .closed (h.toReads.node (fun c ↦ .classExpr c) (fun v i ↦ ?_) fun i ↦ ?_)
    (fun i ↦ ?_) rfl h.start h.ended
  · simp [Expr.view]
  · simp [Tree.entries, Expr.occurrences]
  · simp only [Expr.endsExactly]

namespace Spec

variable {g : Grammar}

/-- The items in parentheses are read alike. -/
theorem parenthesizedItems (hg : g.Even z) :
    Spec z j (fun _ ↦ Script.parenthesizedItems g) (ReadsParenthesized z j) := by
  unfold Script.parenthesizedItems
  refine isAt (choice (fun _ ↦ pure (.nil (grows_refl j))) fun _ ↦ ?_)
  -- A comma has been passed since the last item ended.
  refine loop (I := fun items j1 ↦ ∃ k, ReadsItems z j (fun i ↦ (items i).reverse) k ∧ Grows k j1) ?_
    ⟨j, .nil (grows_refl j), grows_refl j⟩ fun j' hd ↦ .nil (grows_of_dirty hd)
  rintro items j1 hs1 ⟨k, hitems, hk⟩
  have hrest : ∀ (item : Side → Expr) j2, Sound z j2 → ReadsExpr z j1 item j2 →
      Spec z j2 (fun i ↦ do
        if ← Parse.isAt .comma then
          Parse.next
          if ← Parse.isAt .rightParen then
            Parse.unexpected .rightParen
            return .inr (item i :: items i)
          else return .inl (item i :: items i)
        else return .inr (item i :: items i))
      (Round (fun items j1 ↦ ∃ k, ReadsItems z j (fun i ↦ (items i).reverse) k ∧ Grows k j1)
        (ReadsParenthesized z j)) := by
    intro item j2 hs2 hitem
    have hmore := ReadsParenthesized.snoc hitems hk hs1 hitem hs2
    refine isAt (choice (fun _ ↦ next fun j3 hs3 hp3 ↦ isAt (choice (fun _ ↦ ?_) fun _ ↦ ?_)) fun _ ↦ ?_)
    · exact unexpected (pure_inr (hmore.noted rfl))
    · exact pure_inl ⟨j2, hmore.list, hp3.grows⟩
    · exact pure_inr hmore
  refine here (isAt ?_)
  dsimp only
  refine choice (fun _ ↦ ?_) fun _ ↦ ?_
  · refine unexpected (next fun j2 _ hp2 ↦ bind (hg.expr .assignment j2) fun inner j3 hs3 hinner ↦ ?_)
    simp only [pure_bind]
    exact hrest _ j3 hs3 (.bad (hinner.grows.dirty (dirty_of_passed hp2 rfl)))
  · exact bind (hg.expr .assignment j1) fun item j2 hs2 hitem ↦ hrest item j2 hs2 hitem

/-- A parenthesised expression is read alike. -/
theorem parenthesized (hg : g.Even z) :
    Spec z j (fun _ ↦ Script.parenthesized g) (ReadsExpr z j) := by
  unfold Script.parenthesized
  refine of_sound fun hs ↦ expect fun j1 hs1 hp1 ht1 ↦ ?_
  refine bind (parenthesizedItems hg) fun items j2 hs2 hitems ↦ discard_expect fun j3 hs3 hp3 ht3 ↦ ?_
  have hsequence := hitems.list.sequence.parenthesized hs hp1 ht1 hs1 hs2 hp3 ht3 hs3
  have hshape : Alike z .shape items := by
    simpa only [List.reverse_reverse] using (hitems.list.alike .shape trivial).reverse
  obtain rfl | ⟨item, items, rfl, -, hshape⟩ := hshape.list
  · exact unexpected (badFrom rfl)
  obtain rfl | ⟨item', items, rfl, -, -⟩ := hshape.list
  · refine isClean (choice (fun _ ↦ pure ?_) fun _ ↦ pure hsequence)
    exact (hitems.single item rfl).parenthesized hs hp1 ht1 hs1 hs2 hp3 ht3 hs3
  · exact pure hsequence

/-- A primary expression is read alike. -/
theorem primary (hg : g.Even z) : Spec z j (fun _ ↦ Script.primary g) (ReadsExpr z j) := by
  unfold Script.primary
  refine of_sound fun hs ↦ lexeme fun x hx ↦ ?_
  simp only [hx.token]
  split
  case h_1 ht => exact identifier (by rw [ht]; rfl)
  case h_2 ht =>
    refine next fun j1 hs1 hp1 ↦ pure ?_
    simp only [hx.start]
    exact hs.readsKeyword hp1 hs1 (by rw [ht]; decide) .null fun sp ↦
      ⟨fun _ ↦ rfl, rfl, fun _ ↦ by simp only [Expr.endsExactly], rfl, rfl⟩
  case h_3 ht =>
    refine next fun j1 hs1 hp1 ↦ pure ?_
    obtain ⟨raw, hraw, -⟩ := hx.word (by rw [ht]; rfl)
    refine hx.readsExpr hs hp1 hs1 (by rw [ht]; rfl) (.leaf hp1.grows (.boolean default
      (raw == utf8 "true")) (fun v i ↦ ?_) fun _ ↦ rfl) (fun i ↦ ?_) rfl fun _ ↦ rfl
    · simp only [hraw, Tree.view_expr, Expr.view]
    · simp only [Expr.endsExactly]
  case h_4 ht => exact next fun j1 hs1 hp1 ↦ pure (hx.readsString hs hp1 hs1 ht)
  case h_5 ht => exact numeral ht
  case h_6 ht => exact regex (by rw [ht]; rfl : j.token.spelling = some [47])
  case h_7 ht => exact regex (by rw [ht]; rfl : j.token.spelling = some [47, 61])
  case h_8 => exact hg.expr .object j
  case h_9 => exact arrayLiteral hg
  case h_10 => exact parenthesized hg
  case h_11 => exact template hg (.none (grows_refl j))
  case h_12 ht =>
    refine next fun j1 hs1 hp1 ↦ pure ?_
    simp only [hx.start]
    exact hs.readsKeyword hp1 hs1 (by rw [ht]; decide) .this fun sp ↦
      ⟨fun _ ↦ rfl, rfl, fun _ ↦ by simp only [Expr.endsExactly], rfl, rfl⟩
  case h_13 ht => exact superOperand hg ht
  case h_14 ht =>
    refine bind (function hg) ?_
    rintro f j1 hs1 ⟨k, hk, hf⟩
    refine pure (hf.expr hk.grows fun hd ↦ ?_)
    simp only [hx.start]
    exact hs.between hk hs1 hf.grows hd
  case h_15 =>
    exact bind (classBody hg) fun c j1 _ hc ↦ pure hc.expr
  case h_16 =>
    have hname : ∀ dirty, (dirty = false → j.dirty = false) → Spec z { j with dirty := dirty }
        (fun i ↦ do
          if ← Parse.canBind j.token then Parse.identifier
          else
            Parse.unexpected j.token
            Parse.skipFrom (x i).start) (ReadsExpr z j) := fun dirty hdirty ↦ by
      refine of_sound fun hs' ↦ canBind (choice (fun hallows ↦ ?_) fun _ ↦ unexpected (skipFrom rfl))
      exact (identifier (j := { j with dirty := dirty }) (isName_of_allows hallows)).mono
        fun e j' _ he ↦ he.after hs' (grows_dirty hdirty)
    refine choice (fun _ ↦ bind (asyncFunction? hg) ?_) fun _ ↦ ?_
    · rintro _ j1 - (⟨f, rfl, hf⟩ | ⟨rfl, dirty, hdirty, rfl⟩)
      · exact pure hf
      · exact hname dirty hdirty
    · simp only [pure_bind]
      exact hname j.dirty id

end Spec

/-! ### `new` -/

/-- The end of `new.target`. The mark of a private name shows up in its text. -/
theorem Lexes.endsMeta {x : Side → Lexeme} {t : Token} {ps qs : List Piece} (h : Lexes z x t ps qs)
    {stop : Side → Nat} (hstop : ∀ i, stop i = (Parse.nameSpan (x i).start (x i).name).stop) :
    ∃ b, (∀ i, ((x i).name == utf8 "target" && standsBefore (z.source i) (stop i) (x i).name) = b) ∧
      (b = true → Ended z stop qs) := by
  obtain ⟨name, hname⟩ := h.spelt.name
  by_cases ht : t.isName = true
  · obtain ⟨b, hb, hended⟩ := (h.ends ht hstop).1
    refine ⟨name == utf8 "target" && b, fun i ↦ by rw [hb, hname], fun htrue ↦ hended ?_⟩
    exact (Bool.and_eq_true_iff.1 htrue).2
  · refine ⟨false, fun i ↦ ?_, nofun⟩
    by_cases htarget : name = utf8 "target"
    · -- Only a private name has a name and is none.
      have hprivate : standsBefore (z.source i) (stop i) name = false := by
        have hsuffix := h.suffix
        have hstart := h.start
        have hempty : (x i).name ≠ [] := by rw [hname, htarget]; decide
        cases h.spelt with
        | word htrue => exact absurd htrue ht
        | @privateName g gs qs w hg =>
          have hlength : nameLength name = 6 := by rw [htarget]; decide +kernel
          have hplace := getElem?_offset hsuffix (by omega) i
          rw [standsBefore, Bool.and_eq_false_iff, beq_eq_false_iff_ne, beq_eq_false_iff_ne]
          refine .inr fun heq ↦ ?_
          rw [htarget] at heq
          have hhead := congrArg List.head? heq
          rw [hstop, nameSpan_eq, hstart, hname, hlength, Bytes.slice] at hhead
          have h6 : (utf8 "target").length = 6 := by decide
          rw [h6, Nat.add_sub_cancel, Nat.add_sub_cancel_left, List.head?_take, List.head?_drop, hplace,
            hg] at hhead
          revert hhead
          decide
        | number _ _ hname' | string _ _ hname' | mark _ _ hname' | endOfInput hname'
        | illegal _ hname' => exact absurd (hname' i) hempty
      rw [hname, hprivate, Bool.and_false]
    · rw [hname, beq_eq_false_iff_ne.2 htarget, Bool.false_and]

/-- A parenthesis that opens behind an expression. -/
theorem Sound.block {stop : Side → Nat} (hs : Sound z j) (ht : j.token = .leftParen)
    (hs' : Sound z j') (hg : Grows j j') (hd : j'.dirty = false) (h : Ended z stop (j.last z)) :
    Ended z stop (j'.last z) := by
  obtain ⟨g, hplace, hcode⟩ := hs.single (c := 40) (by rw [ht]; rfl)
  have hfollows := hs.follows (hg.clean hd)
  have hjoined := hfollows.joined (by simp [hplace]) h.1
  exact h.block (hplace ▸ hfollows.suffix) (hplace ▸ hjoined) hcode (hs'.last_suffix hg hd)

/-- Whether something stands in for an expression. -/
def Expr.isBad : Expr → Bool
  | .bad _ => true
  | _ => false

theorem isBad_view (v : View) (e : Expr) : (e.view v).isBad = e.isBad := by
  cases e <;> rfl

/-- A wrong expression has a span and nothing else. -/
theorem Expr.eq_bad {e : Expr} (h : e.isBad = true) : ∃ sp, e = .bad sp := by
  cases e with
  | bad sp => exact ⟨sp, rfl⟩
  | _ => exact absurd h Bool.false_ne_true

/-- Something stands in for an expression on both sides or on neither. -/
theorem Alike.bad_or_not {e : Side → Expr} {μ : Mode} (h : Alike z μ e) :
    (∃ sp : Side → Span, e = fun i ↦ .bad (sp i)) ∨ ∀ i sp, e i ≠ .bad sp := by
  have htest := h.test isBad_view
  cases hold : (e .old).isBad with
  | true =>
    choose sp hsp using fun i ↦ Expr.eq_bad ((htest i).trans hold)
    exact .inl ⟨sp, funext hsp⟩
  | false =>
    refine .inr fun i sp heq ↦ ?_
    have hi := htest i
    rw [hold, heq] at hi
    exact absurd hi (by simp [Expr.isBad])

namespace Spec

variable {g : Grammar}

/-- A `new` expression is read alike. -/
theorem construction (hg : g.Even z) :
    Spec z j (fun _ ↦ Script.construction g) (ReadsExpr z j) := by
  unfold Script.construction
  refine of_sound fun hs ↦ expect fun j1 hs1 hp1 ht1 ↦ isAt ?_
  have hoperand : ∀ j2, Sound z j2 → Grows j1 j2 → Spec z j2 (fun i ↦ do
      match ← g.expr .leftHandSide with
      | .bad span => return .bad ⟨z.offset i j.place, span.stop⟩
      | callee =>
        if ← Parse.isAt .leftParen then
          let r ← Script.argumentList g
          return .construct ⟨z.offset i j.place, if r.1.isEmpty then callee.stop else r.2 + 1⟩ callee r.1
        else return .construct ⟨z.offset i j.place, callee.stop⟩ callee [])
      (ReadsExpr z j) := by
    intro j2 hs2 hg2
    refine bind (hg.expr .leftHandSide j2) fun callee j3 hs3 hcallee ↦ ?_
    have hgrows := hp1.grows.trans hg2
    have hstart : ∀ j4, Sound z j4 → Grows j3 j4 → j4.dirty = false →
        Between z j j4 fun i ↦ some (z.offset i j.place) := fun j4 hs4 hg4 hd ↦
      hs.between hp1 hs4 (hg2.trans (hcallee.grows.trans hg4)) hd
    obtain ⟨sp, rfl⟩ | hne := (hcallee.alike .shape trivial).bad_or_not
    · refine pure ⟨.leaf (hgrows.trans hcallee.grows) (.bad default) (fun _ _ ↦ rfl) fun _ ↦ rfl,
        fun hd ↦ ⟨hstart j3 hs3 (grows_refl _) hd, ⟨false, fun i ↦ ?_, by simp⟩,
          fun h ↦ absurd h Bool.false_ne_true, rfl⟩⟩
      simp only [Expr.endsExactly]
    refine of_eq (n := fun i ↦ do
      if ← Parse.isAt .leftParen then
        let r ← Script.argumentList g
        return .construct ⟨z.offset i j.place, if r.1.isEmpty then (callee i).stop else r.2 + 1⟩
          (callee i) r.1
      else return .construct ⟨z.offset i j.place, (callee i).stop⟩ (callee i) []) (fun i ↦ ?_) ?_
    · have hi := hne i
      generalize callee i = e at hi
      cases e with
      | bad sp => exact absurd rfl (hi sp)
      | _ => rfl
    refine isAt (choice (fun hparen ↦ bind (argumentList hg) ?_) fun _ ↦ ?_)
    · rintro r j4 hs4 ⟨hr, hended⟩
      have hreads : Reads z j (fun i ↦ Expr.construct ⟨z.offset i j.place,
          if (r i).1.isEmpty then (callee i).stop else (r i).2 + 1⟩ (callee i) (r i).1) j4 := by
        refine ((hcallee.toReads.after hgrows).pair hr).node (fun p ↦ .construct default p.1 p.2)
          (fun v i ↦ ?_) fun i ↦ ?_
        · simp [Expr.view]
        · simp [Tree.entries_expr, Expr.occurrences]
      refine pure ⟨hreads, fun hd ↦
        ⟨hstart j4 hs4 hr.grows hd, ?_, fun h ↦ absurd h Bool.false_ne_true, rfl⟩⟩
      obtain ⟨b, hb, hexact⟩ := (hcallee.clear (hr.grows.clean hd)).exact
      have hempty : ∀ i, (r i).1.isEmpty = (r .old).1.isEmpty := fun i ↦ by
        simpa using congrArg List.isEmpty (hr.alike .shape trivial i)
      refine ⟨!(r .old).1.isEmpty || b, fun i ↦ ?_, fun htrue ↦ ?_⟩
      · simp only [Expr.endsExactly, hempty, hb]
      · simp only [Expr.stop, Expr.span, hempty]
        cases hold : (r .old).1.isEmpty with
        | true =>
          simp only [hold, Bool.not_true, Bool.false_or] at htrue
          exact hs3.block (beq_iff_eq.1 hparen) hs4 hr.grows hd (hexact htrue)
        | false => exact hended hd
    · refine pure (.ending ?_ hcallee (fun i ↦ ?_) (fun _ ↦ rfl) rfl fun hd ↦
        hstart j3 hs3 (grows_refl _) hd)
      · refine (hcallee.toReads.after hgrows).node (fun e ↦ .construct default e []) (fun v i ↦ ?_) fun i ↦ ?_
        · simp [Expr.view]
        · simp [Tree.entries_expr, Expr.occurrences]
      · simp only [Expr.endsExactly, List.isEmpty_nil, Bool.not_true, Bool.false_or]
  dsimp only
  refine choice (fun _ ↦ next fun j2 hs2 hp2 ↦ lexeme fun x hx ↦ ?_) fun _ ↦ ?_
  · obtain ⟨isTarget, htarget⟩ := hx.exists_word (by decide : "target" ∈ keyWords)
    simp only [htarget, pure_bind]
    refine choice (fun _ ↦ ?_) fun _ ↦ unexpected (of_sound fun hs3 ↦ ?_)
    · simp only [if_true]
      refine lexeme fun x hx ↦ next fun j3 hs3 hp3 ↦ pure ?_
      obtain ⟨name, hname⟩ := hx.spelt.name
      obtain ⟨b, hb, hended⟩ := hx.endsMeta fun _ ↦ rfl
      rw [← hp3.last_eq (z := z)] at hended
      refine ⟨.leaf (hp1.grows.trans (hp2.grows.trans hp3.grows)) (.metaProperty default name)
        (fun v i ↦ ?_) fun _ ↦ rfl, fun hd ↦
          ⟨Between.none, ⟨b, fun i ↦ ?_, hended⟩, fun h ↦ absurd h Bool.false_ne_true, rfl⟩⟩
      · simp only [hname, Tree.view_expr, Expr.view]
      · simpa only [Expr.endsExactly] using hb i
    · simp only [Bool.false_eq_true, if_false]
      exact hoperand _ hs3 (grows_of_dirty rfl)
  · simp only [pure_bind, Bool.false_eq_true, if_false]
    exact hoperand j1 hs1 (grows_refl _)

/-- The members behind an expression, as long as there are some. -/
theorem memberLoop (hg : g.Even z) {left : Side → Expr} (hleft : ReadsExpr z j left j') :
    Spec z j' (fun i ↦ Parse.loop (left i) fun left ↦ do
      match ← Parse.token with
      | .period => return .inl (← Script.dotMember left)
      | .leftBracket => return .inl (← Script.bracketMember g left)
      | .backtick => return .inl (← Script.template g (some left))
      | _ => return .inr left) (ReadsExpr z j) := by
  refine loop (I := ReadsExpr z j) (fun left j2 _ hleft ↦ token ?_) hleft fun j' hd ↦ .const hd _
  split
  · exact bind (dotMember hleft.open) fun e j3 _ he ↦ pure_inl he
  · exact bind (bracketMember hg hleft.open) fun e j3 _ he ↦ pure_inl he
  · exact bind (template hg hleft.toReads.some) fun e j3 _ he ↦ pure_inl he
  · exact pure_inr hleft

/-- An expression on the left of an assignment is read alike. -/
theorem leftHandSide (hg : g.Even z) :
    Spec z j (fun _ ↦ Script.leftHandSide g) (ReadsExpr z j) := by
  unfold Script.leftHandSide
  refine isAt ?_
  dsimp only
  exact ite_bind (bind (choice (fun _ ↦ construction hg) fun _ ↦ primary hg) fun e j1 _ he ↦
    memberLoop hg he)

end Spec

/-- Whether a token goes on with an open expression. -/
def Token.continues : Token → Bool
  | .leftBracket | .leftParen | .backtick => true
  | _ => false

/-- Both sides have read a part of a chain. Behind `?.` it is open, and then the current token goes
on with it. -/
structure ReadsChain (z : Respacing) (j : Joint) (a : Side → Expr × Bool) (j' : Joint) : Prop
    extends ReadsOpen z j (fun i ↦ (a i).1) j' where
  chained : ∃ b, ∀ i, (a i).2 = b
  clear : j'.dirty = false → Clear z j j' (fun i ↦ (a i).1) ∨ j'.token.continues = true

theorem ReadsExpr.chain {e : Side → Expr} (h : ReadsExpr z j e j') (b : Bool) :
    ReadsChain z j (fun i ↦ (e i, b)) j' :=
  ⟨h.open, ⟨b, fun _ ↦ rfl⟩, fun hd ↦ .inl (h.clear hd)⟩

/-- A node that ends where its only part ends. -/
theorem ReadsOpen.optional {e : Side → Expr} (h : ReadsOpen z j e j') :
    ReadsOpen z j (fun i ↦ .optional (e i).span (e i)) j' := by
  refine ⟨h.toReads.node (fun e ↦ .optional default e) (fun v i ↦ ?_) fun i ↦ ?_, h.start⟩
  · simp [Expr.view]
  · simp [Tree.entries_expr, Expr.occurrences]

theorem ReadsOpen.trans {e : Side → Expr} (h : ReadsOpen z j e j') (hs : Sound z j'')
    (hg : Grows j' j'') : ReadsOpen z j e j'' :=
  ⟨h.toReads.trans hg, fun hd ↦ (h.start (hg.clean hd)).mono hs hg hd⟩

/-- The end of a chain. -/
theorem ReadsExpr.chained {e : Side → Expr} (h : ReadsExpr z j e j') :
    ReadsExpr z j (fun i ↦ .chain (e i).span (e i)) j' := by
  refine .ending (h.toReads.node (fun e ↦ .chain default e) (fun v i ↦ ?_) fun i ↦ ?_) h
    (fun i ↦ ?_)
    (fun _ ↦ rfl) rfl fun hd ↦ (h.clear hd).start
  · simp [Expr.view]
  · simp [Tree.entries_expr, Expr.occurrences]
  · simp only [Expr.endsExactly]

namespace Spec

variable {g : Grammar}

/-- A chain of calls and accesses is read alike. -/
theorem callExpression (hg : g.Even z) :
    Spec z j (fun _ ↦ Script.callExpression g) (ReadsExpr z j) := by
  unfold Script.callExpression
  refine withIn ?_ fun e j' scope he ↦ he.inScope scope
  refine Spec.mono (Q := ReadsExpr z { j with scope := { j.scope with allowIn := true } }) ?_
    fun e j' _ he ↦ he.unscope
  generalize { j with scope := { j.scope with allowIn := true } } = k
  refine here (isAt ?_)
  dsimp only
  refine ite_bind (bind (choice (fun _ ↦ construction hg) fun _ ↦ primary hg) fun e j1 _ he ↦ ?_)
  refine loop (I := ReadsChain z k) ?_ (he.chain false) fun j' hd ↦ .const hd _
  intro a j2 hs2 ha
  obtain ⟨left, flags, rfl⟩ := exists_pair a
  obtain ⟨chained, hchained⟩ := ha.chained
  obtain rfl : flags = fun _ ↦ chained := funext hchained
  have hopen : ReadsOpen z k left j2 := ha.toReadsOpen
  dsimp only
  refine token ?_
  split
  · exact bind (dotMember hopen) fun e j3 _ he ↦ pure_inl (he.chain chained)
  · exact bind (bracketMember hg hopen) fun e j3 _ he ↦ pure_inl (he.chain chained)
  · exact bind (callOf hg hopen) fun e j3 _ he ↦ pure_inl (he.chain chained)
  · refine choice (fun _ ↦ here (note ?_)) fun _ ↦ ?_
    · exact bind (skipFrom rfl) fun e j3 _ he ↦ pure_inr he
    · exact bind (template hg hopen.toReads.some) fun e j3 _ he ↦ pure_inl (he.chain chained)
  · refine of_eq (n := fun i ↦ Parse.peek >>= fun t ↦
      if t.continues then Parse.next >>= fun _ ↦
        Pure.pure (.inl (.optional (left i).span (left i), true))
      else Script.dotMember (.optional (left i).span (left i)) >>= fun e ↦
        Pure.pure (.inl (e, true)))
      (fun i ↦ bind_congr fun t ↦ by cases t <;> rfl) (peekNext ?_ ?_)
    · intro t dirty j3 hdirty hs3 hp3 ht hnext
      refine pure_inl (a := fun i ↦ (Expr.optional (left i).span (left i), true))
        ⟨hopen.optional.trans hs3 ((grows_dirty hdirty).trans hp3.grows), ⟨true, fun _ ↦ rfl⟩,
          fun hd ↦ ?_⟩
      exact .inr (by rw [hnext hd, ht])
    · intro t dirty hdirty _
      refine of_sound fun hs3 ↦ ?_
      exact bind (dotMember (hopen.optional.trans hs3 (grows_dirty hdirty))) fun e j3 _ he ↦
        pure_inl (he.chain true)
  case h_6 h1 h2 h3 h4 h5 =>
    have hleft : ReadsExpr z k left j2 := by
      refine ⟨hopen.toReads, fun hd ↦ (ha.clear hd).resolve_right fun hc ↦ ?_⟩
      cases ht : j2.token <;> simp_all [Token.continues]
    refine pure_inr ?_
    cases chained with
    | true => exact hleft.chained
    | false => exact hleft

end Spec

end ColonGap.Script
