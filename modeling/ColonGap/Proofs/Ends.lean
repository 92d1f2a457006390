import ColonGap.Proofs.Tokens
import ColonGap.Proofs.Trees

/-!
# Where expressions end

The span of an expression need not be the extent of its text. `Expr.endsExactly` tells, from the
tree and the source, whether the recorded end of an expression is the end of its last token, apart
from parentheses behind it, which leave no trace in the tree.

What follows from it is `Ended`: from the recorded end, nothing but trivia and closing brackets
lead to the end of the last token. There is one exception, a `new` with an empty list of arguments,
which is recorded to end where its operand ends. There a parenthesis follows, which no search for a
colon passes.
-/

namespace ColonGap.Script

open Piece

/-- The number of bytes that a name is recorded with. -/
def nameLength (name : Bytes) : Nat :=
  (Parse.nameSpan 0 name).stop

theorem nameSpan_eq (start : Nat) (name : Bytes) :
    Parse.nameSpan start name = ⟨start, start + nameLength name⟩ := by
  simp [Parse.nameSpan, nameLength]

/-- A name stands before an offset, and is recorded with the length it has. -/
def standsBefore (source : Bytes) (stop : Nat) (name : Bytes) : Bool :=
  nameLength name == name.length && source.slice (stop - name.length) stop == name

/-- The text is `++` or `--`. -/
def isUpdate (text : Bytes) : Bool :=
  text == [43, 43] || text == [45, 45]

mutual

/-- The recorded end of an expression is where its last token ends. -/
def Expr.endsExactly (source : Bytes) : Expr → Bool
  | .identifier span name | .member span _ name => standsBefore source span.stop name
  | .metaProperty span name => name == utf8 "target" && standsBefore source span.stop name
  | .this _ | .super _ | .null _ | .boolean _ _ | .number _ _ | .string _ _ _ => true
  | .template _ _ _ _ | .array _ _ | .object _ _ | .arrayPattern _ _ _ | .objectPattern _ _ _ => true
  | .call _ _ _ | .index _ _ _ | .function _ | .classExpr _ => true
  -- With flags, the recorded end of a regular expression is that of another token.
  | .regex _ _ _ flags => flags.isEmpty
  | .postUpdate span _ operand =>
    operand.endsExactly source && isUpdate (source.slice operand.stop span.stop)
  | .construct _ callee arguments => !arguments.isEmpty || callee.endsExactly source
  | .yield _ delegate argument => endsExactly? source (!delegate) argument
  | .sequence _ items => lastEndsExactly source false items
  | .arrow _ _ _ body => body.endsExactly source
  | .spread _ operand | .unary _ _ operand | .optional _ operand | .chain _ operand =>
    operand.endsExactly source
  | .await _ operand | .binary _ _ _ operand | .assignment _ _ _ operand =>
    operand.endsExactly source
  | .conditional _ _ _ operand => operand.endsExactly source
  -- The mark of a private name is not counted.
  | .bad _ | .privateName _ _ | .privateMember _ _ _ => false

/-- The recorded end of an expression that may be absent. -/
def endsExactly? (source : Bytes) (absent : Bool) : Option Expr → Bool
  | none => absent
  | some e => e.endsExactly source

/-- The recorded end of the last of some expressions. -/
def lastEndsExactly (source : Bytes) (absent : Bool) : List Expr → Bool
  | [] => absent
  | e :: items => lastEndsExactly source (e.endsExactly source) items

/-- The recorded end of the body of an arrow function. -/
def ArrowBody.endsExactly (source : Bytes) : ArrowBody → Bool
  | .block _ => true
  | .expression value => value.endsExactly source

end

attribute [simp] Expr.endsExactly

variable {z : Respacing} {stop : Side → Nat} {ps qs rs : List Piece}

/-! ### Ends and what follows them -/

/-- A parenthesis opens behind the offsets and trivia and closing brackets. -/
def Blocked (z : Respacing) (stop : Side → Nat) : Prop :=
  ∀ i, ∃ closed q, Gap.Passes isSeparator (z.source i) (stop i) closed q ∧
    (z.source i)[q]? = some 40

/-- The offsets are those of a place from which closing brackets lead to `rs`, unless something
blocks them. -/
def Ended (z : Respacing) (stop : Side → Nat) (rs : List Piece) : Prop :=
  rs ≠ z.pieces ∧ ∃ ps, ps <:+ z.pieces ∧ rs <:+ ps ∧ (∀ i, stop i = z.offset i ps) ∧
    ((∀ i, Gap.Passes isSeparator (z.source i) (stop i) (z.offset i rs) (z.offset i rs)) ∨
      Blocked z stop)

theorem ended_of_offset (h : rs <:+ z.pieces) (hne : rs ≠ z.pieces)
    (hstop : ∀ i, stop i = z.offset i rs) : Ended z stop rs :=
  ⟨hne, rs, h, List.suffix_rfl, hstop, .inl fun i ↦ hstop i ▸ .refl⟩

theorem ne_pieces_of_suffix (h : qs <:+ rs) (hrs : rs <:+ z.pieces) (hne : rs ≠ z.pieces) :
    qs ≠ z.pieces := fun heq ↦
  hne (hrs.eq_of_length_le (heq ▸ h.length_le))

/-- A single ASCII character stands where it starts, on both sides. -/
theorem getElem?_offset {g : Glyph} (h : same g :: ps <:+ z.pieces) (hg : g.code < 0x80)
    (i : Side) : (z.source i)[z.offset i (same g :: ps)]? = some g.code.toUInt8 := by
  rw [← List.head?_drop, Respacing.drop_offset h, text_same, bytes_of_code h hg]
  rfl

/-- An ASCII character takes up one byte. -/
theorem offset_same {g : Glyph} (h : same g :: ps <:+ z.pieces) (hg : g.code < 0x80) (i : Side) :
    z.offset i ps = z.offset i (same g :: ps) + 1 := by
  have hadd := @Respacing.offset_append z ps [same g] h i
  simpa [bytes_of_code h hg] using hadd

/-- A closing bracket behind an end is passed. -/
theorem Ended.close {g : Glyph} (h : Ended z stop rs) (hps : same g :: qs <:+ rs)
    (hjoined : Joined z rs (same g :: qs)) (hg : g.code = 93 ∨ g.code = 41) : Ended z stop qs := by
  obtain ⟨hne, ps, hsuffix, hrs, hstop, hpasses⟩ := h
  have hcode : g.code < 0x80 := by omega
  have hplace : same g :: qs <:+ z.pieces := hps.trans (hrs.trans hsuffix)
  have hqs : qs <:+ rs := (List.suffix_cons _ _).trans hps
  refine ⟨ne_pieces_of_suffix hqs (hrs.trans hsuffix) hne, ps, hsuffix, hqs.trans hrs, hstop, ?_⟩
  refine hpasses.imp (fun hpasses i ↦ ?_) id
  have htrans := (hpasses i).trans (hjoined i)
  rw [if_pos rfl] at htrans
  rw [offset_same hplace hcode]
  refine htrans.closing (getElem?_offset hplace hcode i) ?_
  rcases hg with hg | hg <;> simp [Gap.isClosing, hg]

/-- An opening parenthesis behind an end blocks it. -/
theorem Ended.block {g : Glyph} (h : Ended z stop rs) (hps : same g :: qs <:+ rs)
    (hjoined : Joined z rs (same g :: qs)) (hg : g.code = 40) {rs' : List Piece}
    (hrs' : rs' <:+ rs) : Ended z stop rs' := by
  obtain ⟨hne, ps, hsuffix, hrs, hstop, hpasses⟩ := h
  have hplace : same g :: qs <:+ z.pieces := hps.trans (hrs.trans hsuffix)
  refine ⟨ne_pieces_of_suffix hrs' (hrs.trans hsuffix) hne, ps, hsuffix, hrs'.trans hrs, hstop,
    .inr ?_⟩
  rcases hpasses with hpasses | hblocked
  · intro i
    have htrans := (hpasses i).trans (hjoined i)
    refine ⟨_, _, htrans, ?_⟩
    rw [getElem?_offset hplace (by omega), hg]
    rfl
  · exact hblocked

/-! ### Names -/

/-- The offsets are recorded ends of a name, possibly without its mark, and closing brackets lead
from the end of its text to `rs`. -/
def Named (z : Respacing) (stop : Side → Nat) (rs : List Piece) : Prop :=
  ∃ (gs : List Glyph) (qs : List Piece) (w : Word) (d : Nat), gs.map same ++ qs <:+ z.pieces ∧
    (∀ i, Word.measure 0 true (scalars i (gs.map same ++ qs)) = w) ∧ w.wellFormed = true ∧
    w.count = gs.length ∧ d ≤ nameLength w.name ∧
    (∀ i, stop i + d = z.offset i (gs.map same ++ qs) + nameLength w.name) ∧ rs <:+ qs ∧
    ∀ i, Gap.Passes isSeparator (z.source i) (z.offset i qs) (z.offset i rs) (z.offset i rs)

/-- A closing bracket behind a name is passed. -/
theorem Named.close {g : Glyph} (h : Named z stop rs) (hps : same g :: qs <:+ rs)
    (hjoined : Joined z rs (same g :: qs)) (hg : g.code = 93 ∨ g.code = 41) : Named z stop qs := by
  obtain ⟨gs, ps, w, d, hsuffix, hword, hform, hcount, hmark, hstop, hrs, hpasses⟩ := h
  have hcode : g.code < 0x80 := by omega
  have hplace : same g :: qs <:+ z.pieces :=
    hps.trans (hrs.trans ((List.suffix_append _ _).trans hsuffix))
  refine ⟨gs, ps, w, d, hsuffix, hword, hform, hcount, hmark, hstop,
    (List.suffix_cons _ _).trans (hps.trans hrs), fun i ↦ ?_⟩
  have htrans := (hpasses i).trans (hjoined i)
  rw [if_pos rfl] at htrans
  rw [offset_same hplace hcode]
  refine htrans.closing (getElem?_offset hplace hcode i) ?_
  rcases hg with hg | hg <;> simp [Gap.isClosing, hg]

/-- No name is recorded to be longer than it is spelt, unless there is no gap at all. -/
def Short (z : Respacing) : Prop :=
  isRigid z.pieces = true ∨ ∀ (gs : List Glyph) (qs : List Piece) (w : Word),
    gs.map same ++ qs <:+ z.pieces →
    (∀ i, Word.measure 0 true (scalars i (gs.map same ++ qs)) = w) → w.wellFormed = true →
    w.count = gs.length → nameLength w.name ≤ (gs.flatMap Glyph.bytes).length

/-- There is no place where `...` starts. -/
def Dotless (z : Respacing) : Prop :=
  ∀ (gs : List Glyph) (qs : List Piece), gs.map same ++ qs <:+ z.pieces →
    gs.map Glyph.code ≠ [46, 46, 46]

/-- The recorded end of an operand behind `...` is the same place on both sides, or there is no
such operand. -/
def Tame (z : Respacing) : Prop :=
  Short z ∨ Dotless z

/-- The offsets lie in a stretch of characters that both texts have, which ends before `rs`; if
there is no gap, it is enough that they are the same. -/
def Anchored (z : Respacing) (stop : Side → Nat) (rs : List Piece) : Prop :=
  isRigid z.pieces = true ∧ stop .old = stop .new ∨
    ∃ (gs : List Glyph) (qs : List Piece) (n : Nat), gs.map same ++ qs <:+ z.pieces ∧ rs <:+ qs ∧
      n ≤ (gs.flatMap Glyph.bytes).length ∧ ∀ i, stop i = z.offset i (gs.map same ++ qs) + n

theorem Ended.anchored (h : Ended z stop rs) : Anchored z stop rs := by
  obtain ⟨-, ps, hps, hrs, hstop, -⟩ := h
  exact .inr ⟨[], ps, 0, hps, hrs, Nat.le_refl _, hstop⟩

/-- What has no gap has one text. -/
theorem text_eq_of_isRigid (h : isRigid ps = true) : text .old ps = text .new ps := by
  induction ps with
  | nil => rfl
  | cons p ps ih =>
    cases p with
    | same g => rw [text_same, text_same, ih h]
    | gap blanks => exact absurd h Bool.false_ne_true

/-- The end of what has no gap has none. -/
theorem isRigid_of_suffix (h : isRigid ps = true) (hqs : qs <:+ ps) : isRigid qs = true := by
  obtain ⟨rs, rfl⟩ := hqs
  induction rs with
  | nil => exact h
  | cons p rs ih =>
    cases p with
    | same g => exact ih h
    | gap blanks => exact absurd h Bool.false_ne_true

theorem offset_eq_of_isRigid (h : isRigid z.pieces = true) (hps : ps <:+ z.pieces) :
    z.offset .old ps = z.offset .new ps := by
  rw [Respacing.offset, Respacing.offset, Respacing.source, Respacing.source, text_eq_of_isRigid h,
    text_eq_of_isRigid (isRigid_of_suffix h hps)]

/-- The end of a name is anchored if names are short. -/
theorem Named.anchored (h : Named z stop rs) (hz : Short z) : Anchored z stop rs := by
  obtain ⟨gs, qs, w, d, hsuffix, hword, hform, hcount, hmark, hstop, hrs, -⟩ := h
  rcases hz with hrigid | hshort
  · refine .inl ⟨hrigid, ?_⟩
    have hold := hstop .old
    have hnew := hstop .new
    have hoffset := offset_eq_of_isRigid hrigid hsuffix
    omega
  · have hle := hshort gs qs w hsuffix hword hform hcount
    refine .inr ⟨gs, qs, nameLength w.name - d, hsuffix, hrs, by omega, fun i ↦ ?_⟩
    have hi := hstop i
    omega

/-- A byte that no blank holds is in both texts or in neither. -/
theorem mem_text_iff (hps : ps ++ qs <:+ z.pieces) {c : UInt8} (hc : c < 0x80)
    (hblank : isBlank c.toNat = false) (i : Side) :
    c ∈ text i ps ↔ ∃ g, same g ∈ ps ∧ c ∈ g.bytes := by
  induction ps with
  | nil => simp
  | cons p ps ih =>
    have htail : ps ++ qs <:+ z.pieces := (List.suffix_cons _ _).trans hps
    cases p with
    | same g =>
      simp only [text_same, List.mem_append, ih htail, List.mem_cons, Piece.same.injEq]
      constructor
      · rintro (h | ⟨g', hg', h⟩)
        · exact ⟨g, .inl rfl, h⟩
        · exact ⟨g', .inr hg', h⟩
      · rintro ⟨g', rfl | hg', h⟩
        · exact .inl h
        · exact .inr ⟨g', hg', h⟩
    | gap blanks =>
      have hvalid := z.valid.of_suffix hps
      have hnot : c ∉ (blanks i).flatMap Glyph.bytes := by
        intro hmem
        obtain ⟨g, hg, hbyte⟩ := List.mem_flatMap.1 hmem
        have hsource : g ∈ Utf8.glyphs (z.source i) :=
          mem_glyphs_source hps (i := i) (by simp [hg])
        refine Utf8.notMem_bytes hsource hc ?_ hbyte
        intro hcode
        have hfill := Glyph.isBlank_of_isFiller (hvalid.1 i g hg)
        rw [hcode, hblank] at hfill
        exact Bool.false_ne_true hfill
      simp only [text_gap, List.mem_append, hnot, false_or, ih htail, List.mem_cons, reduceCtorEq]

/-- **Bytes between two places.** From anchored offsets up to a place, both texts have a byte that
no blank holds, or neither has. -/
theorem Anchored.mem_slice_iff (h : Anchored z stop rs) (hrs : rs <:+ z.pieces) (hps : ps <:+ rs)
    {c : UInt8} (hc : c < 0x80) (hblank : isBlank c.toNat = false) (i : Side) :
    c ∈ (z.source i).slice (stop i) (z.offset i ps) ↔
      c ∈ (z.source .old).slice (stop .old) (z.offset .old ps) := by
  rcases h with ⟨hrigid, hstop⟩ | ⟨gs, qs, n, hsuffix, hqs, hn, hstop⟩
  · cases i with
    | old => exact Iff.rfl
    | new =>
      have hsource : z.source .old = z.source .new := text_eq_of_isRigid hrigid
      rw [hsource, hstop, offset_eq_of_isRigid hrigid (hps.trans hrs)]
  · obtain ⟨mid, rfl⟩ := hps.trans hqs
    have hslice : ∀ i, (z.source i).slice (stop i) (z.offset i ps)
        = (gs.flatMap Glyph.bytes).drop n ++ text i mid := by
      intro i
      have hmid : mid ++ ps <:+ z.pieces := (List.suffix_append _ _).trans hsuffix
      have h1 := Respacing.offset_append hsuffix i
      have h2 := Respacing.offset_append hmid i
      rw [text_map_same] at h1
      rw [Bytes.slice, hstop, ← List.drop_drop, Respacing.drop_offset hsuffix, text_append,
        text_map_same, text_append, List.drop_append_of_le_length hn,
        ← List.append_assoc (List.drop n _)]
      refine List.take_left' ?_
      rw [List.length_append, List.length_drop]
      omega
    have hmid : mid ++ ps <:+ z.pieces := (List.suffix_append _ _).trans hsuffix
    simp only [hslice, List.mem_append, mem_text_iff hmid hc hblank]

section

variable {gs : List Glyph} {w : Word} (hps : gs.map same ++ rs <:+ z.pieces)
  (hword : ∀ i, Word.measure 0 true (scalars i (gs.map same ++ rs)) = w)
  (hform : w.wellFormed = true) (hcount : w.count = gs.length)

include hps hword hform hcount

/-- A name is a beginning of the text exactly if it is spelt as it is. -/
theorem name_prefix_iff (i : Side) :
    w.name <+: text i (gs.map same ++ rs) ↔ w.name = gs.flatMap Glyph.bytes := by
  constructor
  · intro hstart
    have hi := hword i
    have hname := @Word.name_eq_of_prefix true _ (Respacing.glyphs_text hps i)
    change Word.measure 0 true ((glyphs i (gs.map same ++ rs)).map Glyph.scalar) = w at hi
    rw [hi] at hname
    have htake := hname hform hstart
    rwa [hcount, Piece.glyphs_append, glyphs_map_same, List.take_left] at htake
  · intro hname
    rw [hname, text_append, text_map_same]
    exact List.prefix_append _ _

/-- **Exact names.** Whether a name stands before its recorded end is the same on both sides, and
if it does, then it ends there. -/
theorem standsBefore_word (hstop : ∀ i, stop i = z.offset i (gs.map same ++ rs) + nameLength w.name) :
    ∃ b, (∀ i, standsBefore (z.source i) (stop i) w.name = b) ∧
      (b = true → ∀ i, stop i = z.offset i rs) := by
  refine ⟨nameLength w.name == w.name.length && w.name == gs.flatMap Glyph.bytes, fun i ↦ ?_, ?_⟩
  · rw [standsBefore]
    cases hlength : nameLength w.name == w.name.length with
    | false => rfl
    | true =>
      rw [beq_iff_eq] at hlength
      rw [Bool.true_and, Bool.true_and, Bool.eq_iff_iff, beq_iff_eq, beq_iff_eq, hstop, hlength,
        Nat.add_sub_cancel, ← name_prefix_iff hps hword hform hcount i, Bytes.slice,
        Respacing.drop_offset hps, List.prefix_iff_eq_take, Nat.add_sub_cancel_left]
      exact eq_comm
  · intro hb i
    rw [Bool.and_eq_true, beq_iff_eq, beq_iff_eq] at hb
    rw [hstop, hb.1, hb.2, Respacing.offset_append hps i, text_map_same]

end

end ColonGap.Script
