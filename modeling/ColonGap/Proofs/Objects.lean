import ColonGap.Proofs.Functions
import ColonGap.Script.Parser.Object

/-!
# Object literals and classes, on both sides

Here the colons of `key: value` entries are passed, and what the later theory needs to know about
them is recorded: which token they are, and that the key ends before them (`Sited`).

What a key is called matters in a few places: an accessor is recognised by its word, a constructor
by its name. Strings with a gap in them are read with different values, but these hold a colon or a
slash, so they are no such names.
-/

namespace ColonGap.Script

open Piece

variable {z : Respacing} {j j' j'' k : Joint}

/-! ### Keys -/

/-- Whether a token can be a key. -/
def Token.isKey (t : Token) : Bool :=
  t.isVerbatim || t == .privateName

theorem isKey_of_mem_punctuators : ∀ p ∈ Token.punctuators, p.2.isKey = false := by
  decide +kernel

/-- A text of single characters ends behind the last of them. -/
theorem behind_of_append {gs : List Glyph} {qs : List Piece} (h : gs.map same ++ qs <:+ z.pieces)
    (hgs : gs ≠ []) (hlast : ∀ g ∈ gs.getLast?, mayPrecede g.code = true) : Behind z qs := by
  rcases List.eq_nil_or_concat gs with rfl | ⟨front, g, rfl⟩
  · exact absurd rfl hgs
  · refine ⟨g, (List.suffix_append (front.map same) _).trans (by simpa using h), hlast g (by simp)⟩

/-- A word ends behind its last character. -/
theorem behind_word {gs : List Glyph} {qs : List Piece} {w : Word}
    (h : gs.map same ++ qs <:+ z.pieces) (hgs : gs ≠ [])
    (hword : ∀ i, Word.measure 0 true (scalars i (gs.map same ++ qs)) = w)
    (hform : w.wellFormed = true) (hcount : w.count = gs.length) : Behind z qs := by
  refine behind_of_append h hgs fun g hg ↦ ?_
  have hlast := @Word.mayPrecede_of_wellFormed 0 true
    (scalars .old (gs.map same ++ qs)) (Nat.zero_le _) (by simp) (by rw [hword]; exact hform)
  rw [hword, hcount] at hlast
  have htake : (scalars .old (gs.map same ++ qs)).take gs.length = gs.map Glyph.scalar := by
    rw [scalars_append, List.take_left' (by simp [scalars])]
    simp [scalars]
  rw [htake, List.getLast?_map] at hlast
  exact hlast g.scalar (by simp [Option.mem_def.1 hg])

/-- A gap may follow a key. -/
theorem Lexes.behind {x : Side → Lexeme} {t : Token} {ps qs : List Piece} (h : Lexes z x t ps qs)
    (ht : t.isKey = true) : Behind z qs := by
  have hsuffix := h.suffix
  cases h.spelt with
  | @word t gs qs w _ hgs hword hform hcount => exact behind_word hsuffix hgs hword hform hcount
  | @privateName g gs qs w _ hgs hword hform hcount =>
    exact behind_word ((List.suffix_cons _ _).trans hsuffix) hgs hword hform hcount
  | @number gs qs hgs hlast =>
    exact behind_of_append hsuffix hgs fun g hg ↦ hlast g (List.mem_of_getLast? hg)
  | @string g c rs qs hg hc =>
    refine ⟨c, ((List.suffix_append rs _).trans (List.suffix_cons _ _)).trans hsuffix, ?_⟩
    rcases hg with hg | hg <;> (rw [hc, hg]; decide)
  | mark hs => exact absurd ht (by simp [isKey_of_mem_punctuators _ hs])
  | endOfInput | illegal => exact absurd ht (by decide)

/-- The names that keys are compared with. -/
def keyNames : List String :=
  ["constructor", "prototype"]

/-- The words that keys are compared with. -/
def keyWords : List String :=
  ["get", "set", "target", "of"]

/-- Both sides have read a key. -/
structure ReadsKey (z : Respacing) (j : Joint) (key : Side → Key) (j' : Joint) : Prop where
  reads : Reads z j (fun i ↦ (key i).value) j'
  token : ∃ t, ∀ i, (key i).token = t
  bytes : ∃ bytes, ∀ i, (key i).bytes = bytes
  spells : ∀ name ∈ keyNames, ∃ b, ∀ i, (key i).spells name = b
  isWord : ∀ word ∈ keyWords, ∃ b, ∀ i, (key i).isWord word = b
  start : j'.dirty = false → Between z j j' fun i ↦ (key i).value.start
  exact : j'.dirty = false → ∃ b, (∀ i, (key i).value.endsExactly (z.source i) = b) ∧
    (b = true → Ended z (fun i ↦ (key i).value.stop) (j'.last z))
  behind : j'.dirty = false → Behind z (j'.last z)

/-- An error is noted behind a key. -/
theorem ReadsKey.noted {key : Side → Key} (h : ReadsKey z j key j') :
    ReadsKey z j key { j' with dirty := true } :=
  { h with
    reads := h.reads.trans (grows_of_dirty rfl)
    start := fun hd ↦ absurd hd (by simp)
    exact := fun hd ↦ absurd hd (by simp)
    behind := fun hd ↦ absurd hd (by simp) }

/-- A closing bracket behind an expression. -/
theorem Sound.close {stop : Side → Nat} {c : Nat} (hs : Sound z j) (hp : Passed j j')
    (hc : j.token.spelling = some [c]) (hclosing : c = 93 ∨ c = 41) (hd : j.dirty = false)
    (h : Ended z stop (j.last z)) : Ended z stop (j'.last z) := by
  obtain ⟨g, hplace, rfl⟩ := hs.single hc
  have hfollows := hs.follows hd
  have hjoined := hfollows.joined (by simp [hplace]) h.1
  rw [hp.last_eq]
  exact h.close (hplace ▸ hfollows.suffix) (hplace ▸ hjoined) hclosing

/-! ### What keys are called -/

theorem notMem_keyNames : ∀ name ∈ keyNames,
    (58 : UInt16) ∉ Utf16.units (utf8 name) ∧ (47 : UInt16) ∉ Utf16.units (utf8 name) := by
  decide +kernel

/-- The words that matter for a key do not start with a quote. -/
theorem head?_keyWords : ∀ word ∈ keyWords, ∀ b rest, utf8 word = b :: rest → b ≠ 34 ∧ b ≠ 39 := by
  intro word hword b rest heq
  have hhead : ∀ word ∈ keyWords, (utf8 word).head?.all fun b ↦ b != 34 && b != 39 := by decide +kernel
  have hb := hhead word hword
  rw [heq] at hb
  simpa using hb

section

variable {x : Side → Lexeme} {t : Token} {ps qs : List Piece}

/-- The text of a token is one of the words on both sides or on neither. -/
theorem Lexes.exists_word (h : Lexes z x t ps qs) {word : String} (hword : word ∈ keyWords) :
    ∃ b, ∀ i, ((x i).raw == utf8 word) = b := by
  rcases h.spelt.raw h.suffix with ⟨raw, hraw⟩ | hquote
  · exact ⟨raw == utf8 word, fun i ↦ by rw [hraw]⟩
  · refine ⟨false, fun i ↦ ?_⟩
    obtain ⟨b, rest, hraw, hb⟩ := hquote i
    rw [beq_eq_false_iff_ne, hraw]
    intro heq
    have hne := head?_keyWords word hword b rest heq.symm
    exact hb.elim hne.1 hne.2

/-- The value of a string is one of the names on both sides or on neither. -/
theorem Lexes.exists_name (h : Lexes z x t ps qs) (ht : t = .string) {name : String}
    (hname : name ∈ keyNames) : ∃ b, ∀ i, ((x i).value == Utf16.units (utf8 name)) = b := by
  subst ht
  cases h.spelt with
  | @string g c rs qs _ _ _ _ hvalue hgap =>
    rcases hgap with hrigid | hmark
    · refine ⟨(x .old).value == Utf16.units (utf8 name), fun i ↦ ?_⟩
      have htext : text i rs = text .old rs := by
        cases i with
        | old => rfl
        | new => exact (text_eq_of_isRigid hrigid).symm
      have hvalues := hvalue i
      rw [htext, hvalue] at hvalues
      rw [Except.ok.inj hvalues]
    · refine ⟨false, fun i ↦ ?_⟩
      rw [beq_eq_false_iff_ne]
      intro heq
      have hnot := notMem_keyNames name hname
      rw [← heq] at hnot
      exact (hmark i).elim hnot.1 hnot.2
  | word hname => exact absurd hname (by decide)
  | mark hs => exact absurd (isVerbatim_of_mem_punctuators _ hs) (by simp [Token.isVerbatim])

end

/-- A private name is the current token. -/
theorem Lexes.readsPrivateName {x : Side → Lexeme} (hx : Lexes z x j.token j.place j.stop)
    (hs : Sound z j) (hp : Passed j j') (hs' : Sound z j') :
    ReadsExpr z j (fun i ↦ .privateName (Parse.nameSpan (x i).start (x i).name) (x i).name) j' := by
  obtain ⟨name, hname⟩ := hx.spelt.name
  simp only [hname]
  refine ⟨.leaf hp.grows (.privateName default name) (fun _ _ ↦ rfl) fun _ ↦ rfl, fun hd ↦
    ⟨?_, ⟨false, fun i ↦ ?_, by simp⟩, nofun, rfl⟩⟩
  · simp only [hx.start]
    exact hs.between hp hs' (grows_refl _) hd
  · simp only [Expr.endsExactly]

/-- A word is the current token, taken for a string. -/
theorem Lexes.readsWord {x : Side → Lexeme} (hx : Lexes z x j.token j.place j.stop)
    (hs : Sound z j) (hp : Passed j j') (hs' : Sound z j') (ht : j.token.isName = true)
    {units : List UInt16} :
    ReadsExpr z j (fun i ↦ .string ⟨(x i).start, (x i).start + (x i).raw.length⟩ (x i).raw units)
      j' := by
  obtain ⟨raw, hraw, -⟩ := hx.word ht
  refine hx.readsExpr hs hp hs' (by simp [Token.isVerbatim, ht])
    ⟨hp.grows, fun μ _ i ↦ ?_, fun _ ↦ .nil fun _ ↦ rfl⟩ (fun i ↦ ?_) rfl fun _ ↦ rfl
  · cases μ with
    | shape | commas => rfl
    | bare => simp only [hraw]; rfl
  · simp only [Expr.endsExactly]

namespace Spec

variable {g : Grammar}

/-- A key is read alike, or on neither side. -/
theorem propertyKey (hg : g.Even z) :
    Spec z j (fun _ ↦ Script.propertyKey g) fun r j' ↦
      r = (fun _ ↦ none) ∧ j'.dirty = true ∨
        ∃ key, r = (fun i ↦ some (key i)) ∧ ReadsKey z j key j' := by
  unfold Script.propertyKey
  refine of_sound fun hs ↦ lexeme fun x hx ↦ ?_
  simp only [hx.token]
  refine choice (fun _ ↦ ?_) fun _ ↦ ?_
  · refine next fun j1 hs1 hp1 ↦ bind (hg.expr .assignment j1) fun e j2 hs2 he ↦ ?_
    refine discard_expect fun j3 hs3 hp3 ht3 ↦ pure (.inr ⟨_, rfl, ?_⟩)
    have hclean : j3.dirty = false → j1.dirty = false := (he.grows.trans hp3.grows).clean
    refine ⟨(he.toReads.after hp1.grows).trans hp3.grows, ⟨none, fun _ ↦ rfl⟩, ⟨[], fun _ ↦ rfl⟩,
      fun _ _ ↦ ⟨false, fun _ ↦ rfl⟩, fun _ _ ↦ ⟨false, fun _ ↦ rfl⟩, fun hd ↦ ?_, fun hd ↦ ?_,
      fun hd ↦ ?_⟩
    · exact (he.between hs3 hp3.grows hd).after hs1 hp1.grows (hclean hd)
    · obtain ⟨b, hb, hended⟩ := (he.clear (hp3.clean hd)).exact
      exact ⟨b, hb, fun htrue ↦ hs2.close hp3 (by rw [ht3 hd]; rfl) (.inl rfl) (hp3.clean hd)
        (hended htrue)⟩
    · obtain ⟨c, hplace, hc⟩ := hs2.single (c := 93) (by rw [ht3 hd]; rfl)
      rw [hp3.last_eq]
      exact ⟨c, hplace ▸ hs2.suffix, by rw [hc]; decide⟩
  · refine next fun j1 hs1 hp1 ↦ ?_
    obtain ⟨name, hname⟩ := hx.spelt.name
    have hkey : ∀ {e : Side → Expr} {t : Token} {units : Side → List UInt16} {bytes : Bytes},
        j.token = t → t.isKey = true → ReadsExpr z j e j1 →
        (∀ name ∈ keyNames, ∃ b, ∀ i, (units i == Utf16.units (utf8 name)) = b) →
        ReadsKey z j (fun i ↦ ⟨some t, (x i).raw, units i, bytes, e i⟩) j1 := by
      intro e t units bytes ht hisKey he hunits
      refine ⟨he.toReads, ⟨_, fun _ ↦ rfl⟩, ⟨_, fun _ ↦ rfl⟩, fun name hname ↦ ?_, fun word hword ↦ ?_,
        fun hd ↦ (he.clear hd).start, fun hd ↦ (he.clear hd).exact, fun _ ↦ ?_⟩
      · exact hunits name hname
      · exact hx.exists_word hword
      · rw [hp1.last_eq]
        exact hx.behind (ht ▸ hisKey)
    split
    case h_1 ht =>
      refine pure (.inr ⟨_, rfl, hkey ht rfl (hx.readsString hs hp1 hs1 ht) fun name hname ↦ ?_⟩)
      exact hx.exists_name ht hname
    case h_2 ht =>
      obtain ⟨raw, hraw⟩ := hx.raw_number ht
      have hnumber := @hkey _ _ (fun _ ↦ []) [] ht rfl (hx.readsNumber hs hp1 hs1 ht)
        fun name _ ↦ ⟨[] == Utf16.units (utf8 name), fun _ ↦ rfl⟩
      simp only [hraw] at hnumber ⊢
      refine choice (fun _ ↦ pure (.inr ⟨_, rfl, hnumber⟩)) fun _ ↦ ?_
      exact note (pure (.inl ⟨rfl, rfl⟩))
    case h_3 ht =>
      have hprivate := @hkey _ _ (fun _ ↦ Utf16.units name) name ht rfl
        (hx.readsPrivateName hs hp1 hs1) fun _ _ ↦ ⟨_, fun _ ↦ rfl⟩
      simp only [hname] at hprivate ⊢
      exact pure (.inr ⟨_, rfl, hprivate⟩)
    case h_4 =>
      simp only [hname]
      refine choice (fun hisName ↦ ?_) fun _ ↦ unexpected (pure (.inl ⟨rfl, rfl⟩))
      refine pure (.inr ⟨_, rfl, hkey rfl ?_ (hx.readsWord hs hp1 hs1 hisName) fun _ _ ↦
        ⟨_, fun _ ↦ rfl⟩⟩)
      simp [Token.isKey, Token.isVerbatim, hisName]

end Spec

/-! ### Entries -/

/-- An element that may be absent, behind a list that is kept in reverse. -/
theorem Reads.snocOption {α : Type} [Tree α] {as : Side → List α} {a : Side → Option α}
    (h : Reads z j (fun i ↦ (as i).reverse) j') (ha : Reads z j' a j'') :
    Reads z j (fun i ↦ ((a i).toList ++ as i).reverse) j'' := by
  refine (h.pair ha).node (fun p ↦ p.1 ++ p.2.toList) (fun v i ↦ ?_) fun i ↦ ?_
  · cases a i <;> simp
  · cases a i <;> simp

namespace ReadsKey

variable {key : Side → Key} {value : Side → Expr}

/-- **Colons.** A key, a colon and a value: the colon is recorded. -/
theorem sited (h : ReadsKey z j key j') (hs : Sound z j') (hp : Passed j' j'')
    (ht : j''.dirty = false → j'.token = .colon) (hv : ReadsExpr z j'' value k)
    (hd : k.dirty = false) : Sited z k.trace fun i ↦ ((key i).value, (value i).start) := by
  have hd'' := hv.grows.clean hd
  have hd' := hp.clean hd''
  obtain ⟨g, hplace, hg⟩ := hs.single (c := 58) (by rw [ht hd'']; rfl)
  have hfollows := hs.follows hd'
  obtain ⟨c, hc, hmay⟩ := h.behind hd'
  refine ⟨j'.trace, g, j'.stop, ?_, hg, ⟨c, hc, hmay⟩, ?_, h.exact hd', fun i n hn ↦ ?_, fun i n hn ↦ ?_⟩
  · rw [← hplace, ← hp.trace]
    exact hv.grows.trace hd
  · rw [← hplace]
    exact hfollows.joined (by simp [hplace]) (ne_of_cons_suffix hc List.suffix_rfl)
  · rw [← hplace]
    exact (h.start hd' i n hn).2.trans
      (Respacing.offset_le_of_suffix hfollows.suffix (hs.last_pieces hd') i)
  · have hlower := ((hv.clear hd).start i n hn).1
    rwa [hp.last_eq] at hlower

/-- A `key: value` entry. -/
theorem keyed (h : ReadsKey z j key j') (hs : Sound z j') (hp : Passed j' j'')
    (ht : j''.dirty = false → j'.token = .colon) (hv : ReadsExpr z j'' value k) (computed : Bool) :
    Reads z j (fun i ↦ Property.keyed .value computed (key i).value (value i)) k where
  grows := h.reads.grows.trans (hp.grows.trans hv.grows)
  alike μ hμ := by
    have hkey := h.reads.alike μ (hμ.of_grows (hp.grows.trans hv.grows))
    exact alike_keyed.2 ⟨hkey, hv.alike μ hμ⟩
  entries hd := by
    have hgrows := hp.grows.trans hv.grows
    obtain ⟨es, hes, hsited⟩ := ((h.reads.entries (hgrows.clean hd)).mono (hgrows.trace hd)).append
      (hv.entries hd)
    refine ⟨(fun i ↦ ((key i).value, (value i).start)) :: es, fun i ↦ ?_, fun e he ↦ ?_⟩
    · simp only [Tree.entries_keyed, Tree.entriesOfKey, List.cons_append, List.map_cons]
      rw [← hes i]
    · rcases List.mem_cons.1 he with rfl | he
      · exact h.sited hs hp ht hv hd
      · exact hsited e he

/-- A method or an accessor. -/
theorem method {f : Side → Function} (h : ReadsKey z j key j') (hf : Reads z j' f j'')
    {kind : PropertyKind} (hkind : kind ≠ .value) (computed : Bool) :
    Reads z j (fun i ↦ Property.keyed kind computed (key i).value (.function (f i))) j'' := by
  refine (h.reads.pair hf).node (fun p ↦ .keyed kind computed p.1 (.function p.2)) (fun v i ↦ ?_) fun i ↦ ?_
  · simp [Property.view, Expr.view]
  · have hkey : Tree.entriesOfKey kind (key i).value (.function (f i)) = Tree.entries (key i).value := by
      cases kind with
      | value => exact absurd rfl hkind
      | _ => rfl
    rw [Tree.entries_keyed, hkey, Tree.entries_pair]
    congr 1

end ReadsKey

namespace Spec

variable {g : Grammar}

/-- A key and its value are read alike, with the colon between them. -/
theorem keyedValue (hg : g.Even z) {key : Side → Key} (h : ReadsKey z k key j) :
    Spec z j (fun i ↦ Script.property.keyedValue g (key i)) (Reads z k) := by
  unfold Script.property.keyedValue
  obtain ⟨t, ht⟩ := h.token
  simp only [Key.isComputed, ht]
  refine of_sound fun hs ↦ discard_expect fun j1 _ hp1 ht1 ↦ ?_
  exact bind (hg.expr .assignment j1) fun value j2 _ hv ↦ pure (h.keyed hs hp1 ht1 hv _).some

/-- An accessor is read alike. -/
theorem accessor (hg : g.Even z) (hgrows : Grows k j) {start : Side → Nat} {kind : PropertyKind}
    (hkind : kind ≠ .value) {isAsync : Bool} :
    Spec z j (fun i ↦ Script.property.accessor g (start i) kind isAsync) (Reads z k) := by
  unfold Script.property.accessor
  refine bind (propertyKey hg) ?_
  rintro _ j1 - (⟨rfl, hd⟩ | ⟨key, rfl, hkey⟩)
  · exact pure (.const hd none)
  · obtain ⟨t, ht⟩ := hkey.token
    simp only [Key.isComputed, ht]
    refine bind (method hg) fun f j2 _ hf ↦ pure ?_
    exact ((hkey.method hf.toReads hkind _).after hgrows).some

/-- A shorthand entry. -/
theorem short {start : Side → Nat} {name : Bytes} (hgrows : Grows k j) :
    Reads z k (fun i ↦ Property.short (Parse.nameSpan (start i) name) name none) j := by
  refine .leaf hgrows (.short default name none) (fun v i ↦ ?_) fun i ↦ ?_
  · simp [Property.view]
  · simp

/-- What follows the key of a property is read alike. -/
theorem propertyTail (hg : g.Even z) {key : Side → Key} (h : ReadsKey z k key j)
    {start : Side → Nat} {t : Token} :
    Spec z j (fun i ↦ Script.property.propertyTail g (start i) (key i) t) (Reads z k) := by
  unfold Script.property.propertyTail
  obtain ⟨kt, ht⟩ := h.token
  obtain ⟨name, hname⟩ := h.bytes
  obtain ⟨isGet, hget⟩ := h.isWord "get" (by decide)
  obtain ⟨isSet, hset⟩ := h.isWord "set" (by decide)
  have hgrows := h.reads.grows
  simp only [Key.isComputed, ht, hname, hget, hset]
  refine choice (fun _ ↦ ?_) fun _ ↦
    choice (fun _ ↦ canBind (choice (fun _ ↦ ?_) fun _ ↦ ?_)) fun _ ↦ ?_
  · exact bind (method hg) fun f j1 _ hf ↦ pure (h.method hf.toReads (by decide) _).some
  · refine choice (fun _ ↦ ?_) fun _ ↦ pure (short hgrows).some
    refine next fun j1 _ hp1 ↦ bind (hg.expr .assignment j1) fun value j2 _ hv ↦ pure (Reads.some ?_)
    refine (hv.toReads.after (hgrows.trans hp1.grows)).node
      (fun value ↦ .short default name (some value)) (fun v i ↦ ?_) fun i ↦ ?_
    · simp [Property.view]
    · simp
  · exact unexpected (keyedValue hg h.noted)
  · refine choice (fun _ ↦ accessor hg hgrows (by decide)) fun _ ↦
      choice (fun _ ↦ accessor hg hgrows (by decide)) fun _ ↦
      choice (fun _ ↦ accessor hg hgrows (by decide)) fun _ ↦ keyedValue hg h

/-- A property is read alike. -/
theorem property (hg : g.Even z) : Spec z j (fun _ ↦ Script.property g) (Reads z j) := by
  unfold Script.property
  refine isAt (choice (fun _ ↦ ?_) fun _ ↦ here (isAt ?_))
  · refine next fun j1 _ hp1 ↦ bind (hg.expr .assignment j1) fun inner j2 _ hi ↦ pure (Reads.some ?_)
    refine (hi.toReads.after hp1.grows).node (fun inner ↦ .spread inner) (fun v i ↦ ?_) fun i ↦ ?_
    · simp [Property.view]
    · simp
  · generalize (j.token == Token.times) = isGenerator
    dsimp only
    refine nextIf fun j1 _ hg1 ↦ bind (propertyKey hg) ?_
    rintro _ j2 hs2 (⟨rfl, hd⟩ | ⟨key, rfl, hkey⟩)
    · exact pure (.const hd none)
    obtain ⟨t, ht⟩ := hkey.token
    simp only [Key.isPrivate, Key.isComputed, ht]
    refine choice (fun _ ↦ ?_) fun _ ↦ choice (fun _ ↦ ?_) fun _ ↦ ?_
    · refine discard_expect fun j3 _ hp3 ht3 ↦ bind (hg.expr .assignment j3) fun value j4 _ hv ↦ ?_
      exact pure ((hkey.keyed hs2 hp3 ht3 hv false).after hg1).some
    · refine bind (method hg) fun f j3 _ hf ↦ pure ?_
      exact ((hkey.method hf.toReads (by decide) _).after hg1).some
    · exact token ((propertyTail hg hkey).mono fun p j3 _ hp ↦ hp.after hg1)

/-- An object literal is read alike. -/
theorem objectLiteral (hg : g.Even z) :
    Spec z j (fun _ ↦ Script.objectLiteral g) (ReadsExpr z j) := by
  unfold Script.objectLiteral
  refine of_sound fun hs ↦ expect fun j1 hs1 hp1 _ ↦ ?_
  refine bind (Q := Reads z j1) (loop (I := fun ps ↦ Reads z j1 fun i ↦ (ps i).reverse) ?_
    (.nil (grows_refl _)) fun j' hd ↦ .const hd _) ?_
  · intro ps j2 hs2 hps
    refine token ?_
    split
    · exact pure_inr hps
    · exact pure_inr hps
    · refine bind (property hg) fun p j3 hs3 hp ↦ isAt ?_
      have hmore := hps.snocOption hp
      refine choice (fun _ ↦ pure_inr hmore) fun _ ↦ ?_
      exact discard_expect fun j4 _ hp4 _ ↦ pure_inl (hmore.trans hp4.grows)
  · intro ps j2 hs2 hps
    refine expect fun j3 hs3 hp3 ht3 ↦ pure (.closed ?_ (fun i ↦ ?_) rfl (fun hd ↦ ?_) fun hd ↦ ?_)
    · refine ((hps.trans hp3.grows).after hp1.grows).node (fun ps ↦ .object default ps)
        (fun v i ↦ ?_) fun i ↦ ?_
      · simp [Expr.view]
      · simp [Tree.entries_expr, Expr.occurrences]
    · simp only [Expr.endsExactly]
    · exact hs.between hp1 hs3 (hps.grows.trans hp3.grows) hd
    · exact hs2.ended hp3 (by rw [ht3 hd]; rfl) (by decide)

/-! ### Classes -/

/-- The modifiers of a class member are the same on both sides. -/
theorem modifiers {isStatic : Bool} :
    Spec z j (fun _ ↦ Script.modifiers isStatic) fun r j' ↦ (∃ m, r = fun _ ↦ m) ∧ Grows j j' := by
  unfold Script.modifiers
  refine lexeme fun x hx ↦ ?_
  obtain ⟨isGet, hget⟩ := hx.exists_word (by decide : "get" ∈ keyWords)
  obtain ⟨isSet, hset⟩ := hx.exists_word (by decide : "set" ∈ keyWords)
  simp only [hget, hset, hx.token, pure_bind]
  have hrest : ∀ (kind : Option PropertyKind) (isAsync : Bool) (j1 : Joint), Grows j j1 →
      Spec z j1 (fun _ ↦ do
        if (← Parse.isAt .times) && (kind.isNone || kind == some .method) then
          Parse.next
          return (⟨isStatic, some .method, isAsync, true⟩ : Modifiers)
        else return ⟨isStatic, kind, isAsync, false⟩)
      fun r j' ↦ (∃ m, r = fun _ ↦ m) ∧ Grows j j' := by
    intro kind isAsync j1 hg1
    refine isAt (choice (fun _ ↦ ?_) fun _ ↦ pure ⟨⟨_, rfl⟩, hg1⟩)
    exact next fun j2 _ hp2 ↦ pure ⟨⟨_, rfl⟩, hg1.trans hp2.grows⟩
  refine choice (fun _ ↦ peek fun t dirty hdirty ↦ ?_) fun _ ↦ hrest _ _ j (grows_refl j)
  have hpeeked := grows_dirty hdirty
  refine choice (fun _ ↦ next fun j1 _ hp1 ↦ ?_) fun _ ↦ hrest _ _ _ hpeeked
  have hg1 := hpeeked.trans hp1.grows
  exact choice (fun _ ↦ hrest _ _ j1 hg1) fun _ ↦ choice (fun _ ↦ hrest _ _ j1 hg1) fun _ ↦
    hrest _ _ j1 hg1

/-- Names that methods may not have are reported on both sides. -/
theorem checkMethodName {key : Side → Key} (h : ReadsKey z k key j') {m : Modifiers}
    {kind : PropertyKind} :
    Spec z j (fun i ↦ Script.checkMethodName m kind (key i)) fun _ j' ↦ Grows j j' := by
  unfold Script.checkMethodName
  obtain ⟨isConstructor, hconstructor⟩ := h.spells "constructor" (by decide)
  obtain ⟨t, ht⟩ := h.token
  simp only [hconstructor, Key.isPrivate, ht]
  have hnote : ∀ {place : Side → Option Nat} {cause : Cause}, Spec z j
      (fun i ↦ Parse.note (place i) cause) fun _ j' ↦ Grows j j' :=
    alone (note (pure (grows_of_dirty rfl)))
  have hskip : Spec z j (fun _ ↦ (Pure.pure () : Parse Unit)) fun _ j' ↦ Grows j j' :=
    pure (grows_refl j)
  refine choice (fun _ ↦ choice (fun _ ↦ choice (fun _ ↦ hnote) fun _ ↦ hskip) fun _ ↦ ?_) fun _ ↦ hskip
  exact choice (fun _ ↦ hnote) fun _ ↦ choice (fun _ ↦ hnote) fun _ ↦
    choice (fun _ ↦ hnote) fun _ ↦ hskip

/-- A member of a class is read alike, and whether it is a constructor is. -/
theorem classMember (hg : g.Even z) {isStatic : Bool} :
    Spec z j (fun _ ↦ Script.classMember g isStatic) fun r j' ↦
      Reads z j (fun i ↦ (r i).1) j' ∧ ∃ b, ∀ i, (r i).2 = b := by
  unfold Script.classMember
  refine here (bind modifiers ?_)
  rintro _ j1 - ⟨⟨m, rfl⟩, hg1⟩
  refine bind (propertyKey hg) ?_
  rintro _ j2 hs2 (⟨rfl, hd⟩ | ⟨key, rfl, hkey⟩)
  · exact pure ⟨.const hd none, false, fun _ ↦ rfl⟩
  have hvalue := hkey.reads.after hg1
  obtain ⟨t, ht⟩ := hkey.token
  obtain ⟨isConstructor, hconstructor⟩ := hkey.spells "constructor" (by decide)
  obtain ⟨isPrototype, hprototype⟩ := hkey.spells "prototype" (by decide)
  simp only [Key.isComputed, Key.isPrivate, ht, hconstructor, hprototype, pure_bind]
  have hmethod : ∀ kind j3, Grows j2 j3 → Spec z j3 (fun i ↦ do
      Script.checkMethodName m kind (key i)
      let body ← Script.method g (z.offset i j.place) kind m.isGenerator m.isAsync
      return (some (ClassElement.method kind isStatic t.isNone (key i).value body), false))
      fun r j' ↦ Reads z j (fun i ↦ (r i).1) j' ∧ ∃ b, ∀ i, (r i).2 = b := by
    intro kind j3 hg3
    refine bind (checkMethodName hkey) fun _ j4 _ hg4 ↦ bind (method hg) fun f j5 _ hf ↦ pure
      ⟨Reads.some ?_, false, fun _ ↦ rfl⟩
    refine ((hvalue.trans (hg3.trans hg4)).pair hf.toReads).node
      (fun p ↦ .method kind isStatic t.isNone p.1 p.2) (fun v i ↦ ?_) fun i ↦ ?_
    · simp [ClassElement.view]
    · simp [Tree.entries, ClassElement.occurrences]
  have hfield : ∀ (initializer : Side → Option Expr) j3, Reads z j2 initializer j3 →
      Spec z j3 (fun i ↦ do
        let t' ← Parse.token
        if !(← Parse.implicitSemicolon) && t' != .semicolon && t' != .rightBrace then
          Parse.unexpected t'
          return (none, true)
        else
          return (some (ClassElement.field isStatic t.isNone (key i).value (initializer i)), false))
      fun r j' ↦ Reads z j (fun i ↦ (r i).1) j' ∧ ∃ b, ∀ i, (r i).2 = b := by
    intro initializer j3 hi
    refine token (implicitSemicolon (choice (fun _ ↦ ?_) fun _ ↦ ?_))
    · exact unexpected (pure ⟨.const rfl none, true, fun _ ↦ rfl⟩)
    · refine pure ⟨Reads.some ?_, false, fun _ ↦ rfl⟩
      refine (hvalue.pair hi).node (fun p ↦ .field isStatic t.isNone p.1 p.2) (fun v i ↦ ?_) fun i ↦ ?_
      · simp [ClassElement.view]
      · simp [Tree.entries, ClassElement.occurrences]
  refine noteIf fun dirty hdirty ↦
    isAt (choice (fun _ ↦ hmethod _ _ (grows_dirty hdirty)) fun _ ↦ ?_)
  cases m.kind with
  | some kind => exact hmethod _ _ (grows_dirty hdirty)
  | none =>
    refine noteIf fun dirty' hdirty' ↦ isAt (choice (fun _ ↦ ?_) fun _ ↦ ?_)
    · refine next fun j3 _ hp3 ↦ bind (expression hg) fun e j4 _ he ↦ ?_
      refine hfield (fun i ↦ some (e i)) j4 (he.toReads.after ?_).some
      exact (grows_dirty fun hd ↦ hdirty (hdirty' hd)).trans hp3.grows
    · exact hfield (fun _ ↦ none) _ (.none (grows_dirty fun hd ↦ hdirty (hdirty' hd)))

/-- The word that makes a member static is passed on both sides or on neither. -/
theorem staticModifier :
    Spec z j (fun _ ↦ Script.staticModifier) fun r j' ↦ (∃ b, r = fun _ ↦ b) ∧
      ∃ dirty, (dirty = false → j.dirty = false) ∧ j' = { j with dirty := dirty } := by
  unfold Script.staticModifier
  refine peek fun t dirty hdirty ↦ ?_
  split <;> exact pure ⟨⟨_, rfl⟩, dirty, hdirty, rfl⟩

end Spec

/-- Both sides have read a class; where it ends is known. -/
structure ReadsClass (z : Respacing) (j : Joint) (c : Side → Class) (j' : Joint) : Prop
    extends Reads z j c j' where
  start : j'.dirty = false → Between z j j' fun i ↦ (c i).span.start
  ended : j'.dirty = false → Ended z (fun i ↦ (c i).span.stop) (j'.last z)

namespace Spec

variable {g : Grammar}

/-- The members of a class, up to its closing brace. -/
def classElements (g : Grammar) : Parse (List ClassElement) :=
  Parse.loop ([] : List ClassElement) fun elements ↦ do
    match ← Parse.token with
    | .rightBrace | .endOfInput => return .inr elements.reverse
    | .semicolon =>
      Parse.next
      return .inl elements
    | t =>
      let isStatic ← if t == .staticWord then Script.staticModifier else Pure.pure false
      if isStatic then Parse.next
      if isStatic && (← Parse.isAt .leftBrace) then
        let (body, _) ← Script.functionBlock g false true false
        return .inl (.staticBlock body :: elements)
      else
        let (element, broken) ← Script.classMember g isStatic
        let elements := element.toList ++ elements
        if broken then return .inr elements.reverse else return .inl elements

/-- The members of a class are read alike. -/
theorem classElements_alone (hg : g.Even z) :
    Spec z j (fun _ ↦ classElements g) (Reads z j) := by
  unfold classElements
  refine loop (I := fun els ↦ Reads z j fun i ↦ (els i).reverse) ?_ (.nil (grows_refl j))
    fun j' hd ↦ .const hd _
  intro els j1 hs1 hels
  have hmember : ∀ isStatic j2, Grows j1 j2 → Spec z j2 (fun i ↦ do
      let r ← Script.classMember g isStatic
      let elements := r.1.toList ++ els i
      if r.2 then return .inr elements.reverse else return .inl elements)
      (Round (fun els ↦ Reads z j fun i ↦ (els i).reverse) (Reads z j)) := by
    intro isStatic j2 hg2
    refine bind (classMember hg) ?_
    rintro r j3 - ⟨hr, b, hb⟩
    have hmore := hels.snocOption (hr.after hg2)
    simp only [hb]
    exact choice (fun _ ↦ pure_inr hmore) fun _ ↦ pure_inl hmore
  have hstatic : ∀ isStatic j2, Grows j1 j2 → Spec z j2 (fun i ↦ do
      if isStatic then Parse.next
      if isStatic && (← Parse.isAt .leftBrace) then
        let r ← Script.functionBlock g false true false
        return .inl (ClassElement.staticBlock r.1 :: els i)
      else
        let r ← Script.classMember g isStatic
        let elements := r.1.toList ++ els i
        if r.2 then return .inr elements.reverse else return .inl elements)
      (Round (fun els ↦ Reads z j fun i ↦ (els i).reverse) (Reads z j)) := by
    intro isStatic j2 hg2
    refine nextIf fun j3 _ hg3 ↦ isAt (choice (fun _ ↦ ?_) fun _ ↦ hmember _ j3 (hg2.trans hg3))
    refine bind (functionBlock hg) fun r j4 _ hr ↦ pure_inl (hels.snoc ?_)
    refine (hr.reads.after (hg2.trans hg3)).node (fun body ↦ .staticBlock body) (fun v i ↦ ?_) fun i ↦ ?_
    · simp [ClassElement.view]
    · simp [Tree.entries, ClassElement.occurrences]
  refine token ?_
  split
  · exact pure_inr hels
  · exact pure_inr hels
  · exact next fun j2 _ hp2 ↦ pure_inl (hels.trans hp2.grows)
  · dsimp only
    refine choice (fun _ ↦ bind staticModifier ?_) fun _ ↦ ?_
    · rintro _ j2 - ⟨⟨b, rfl⟩, dirty, hdirty, rfl⟩
      exact hstatic b _ (grows_dirty hdirty)
    · simp only [pure_bind]
      exact hstatic false j1 (grows_refl _)

/-- The body of a class is read alike. -/
theorem classBody (hg : g.Even z) {declared : Bool} :
    Spec z j (fun _ ↦ Script.classBody g declared) (ReadsClass z j) := by
  unfold Script.classBody
  refine scope (of_sound fun hs ↦ ?_)
  dsimp only
  refine unexpectedIf fun dirty hdirty ↦ of_sound fun hs' ↦ expect fun j1 hs1 hp1 _ ↦ ?_
  refine bind declaredName ?_
  rintro _ j2 - ⟨⟨name, rfl⟩, hg2⟩
  have hbody : ∀ (superclass : Side → Option Expr) j3, Reads z j1 superclass j3 →
      Spec z j3 (fun i ↦ do
        discard (Parse.expect .leftBrace)
        let elements ← classElements g
        let stop ← Parse.expect .rightBrace
        return Class.mk ⟨z.offset i j.place, stop + 1⟩ name (superclass i) elements)
      (ReadsClass z j) := by
    intro superclass j3 hsuper
    refine discard_expect fun j4 _ hp4 _ ↦ bind (classElements_alone hg) fun els j5 hs5 hels ↦ ?_
    refine expect fun j6 hs6 hp6 ht6 ↦ pure ?_
    have hgrows := hsuper.grows.trans (hp4.grows.trans (hels.grows.trans hp6.grows))
    refine ⟨?_, fun hd ↦ hs'.between hp1 hs6 hgrows hd, fun hd ↦ ?_⟩
    · refine (((hsuper.trans hp4.grows).pair hels).trans hp6.grows |>.after
        ((grows_dirty hdirty).trans hp1.grows)).node (fun p ↦ .mk default name p.1 p.2)
        (fun v i ↦ ?_) fun i ↦ ?_
      · simp [Class.view]
      · simp [Tree.entries, Class.occurrences]
    · exact hs5.ended hp6 (by rw [ht6 hd]; rfl) (by decide)
  refine isAt (choice (fun _ ↦ ?_) fun _ ↦ ?_)
  · exact hbody (fun _ ↦ none) j2 (.none hg2)
  · refine discard_expect fun j3 _ hp3 _ ↦ bind (hg.expr .call j3) fun e j4 _ he ↦ ?_
    exact hbody (fun i ↦ some (e i)) j4 (he.toReads.after (hg2.trans hp3.grows)).some

end Spec

end ColonGap.Script
