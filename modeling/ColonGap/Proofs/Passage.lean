import ColonGap.Gap
import ColonGap.Proofs.Characters

/-!
# From a key to its colon

`Passes` says what may stand between the end of a key and its colon, without saying how it is
looked for: blanks, closing brackets and comments, one item after the other. It records where the
last closing bracket ends, because that is where the gap starts.

Which characters count as blank is left open. The search takes those of `isBlank`, while the
tokens of a script may be separated by one more, and the two notions are compared where that
matters.

## The search finds what is there

The items of a text are determined by the text, so there is at most one way to go on, and
`findColon_eq_some_iff` is an equivalence: the search finds a colon exactly if items lead up to
one.
-/

namespace ColonGap

namespace Gap

variable {blank : Nat → Bool} {source : Bytes}

/-! ### Items -/

/-- An item of `n` bytes that closes nothing: a blank or a comment. -/
inductive Separates (blank : Nat → Bool) : Bytes → Nat → Prop
  | blank {b : UInt8} {rest : Bytes} (h : blank (Utf8.ofLead b rest).code = true) :
      Separates blank (b :: rest) (Utf8.ofLead b rest).width
  | line {s : Bytes} {n : Nat} (h : lineBreak? (47 :: 47 :: s) = some n) :
      Separates blank (47 :: 47 :: s) n
  | block {s : Bytes} {n : Nat} (h : Bytes.indexOf? [42, 47] s = some n) :
      Separates blank (47 :: 42 :: s) (n + 4)

/-- A closing bracket or parenthesis. -/
def isClosing (b : UInt8) : Bool :=
  b == 93 || b == 41

theorem startsLineBreak_slash (s : Bytes) : startsLineBreak (47 :: s) = false := by
  simp [startsLineBreak]

/-- In front of a line break there is something if a slash comes first. -/
theorem lineBreak?_slash {s : Bytes} {n : Nat} (h : lineBreak? (47 :: s) = some n) : 1 ≤ n := by
  rw [lineBreak?, startsLineBreak_slash] at h
  simp only [Bool.false_eq_true, if_false, Option.map_eq_some_iff] at h
  omega

/-- What separates is not empty. -/
theorem Separates.pos {s : Bytes} {n : Nat} (h : Separates blank s n) : 1 ≤ n := by
  cases h with
  | blank => exact Utf8.one_le_width_ofLead _ _
  | line h => exact lineBreak?_slash h
  | block => omega

/-- What separates for some blanks does so for more blanks. -/
theorem Separates.mono {blank' : Nat → Bool} (hle : ∀ c, blank c = true → blank' c = true)
    {s : Bytes} {n : Nat} (h : Separates blank s n) : Separates blank' s n := by
  cases h with
  | blank h => exact .blank (hle _ h)
  | line h => exact .line h
  | block h => exact .block h

theorem isBlank_colon : isBlank (UInt8.toNat 58) = false := by decide

/-- The items that the search knows. -/
theorem item?_of_separates {s : Bytes} {n : Nat} (h : Separates isBlank s n) :
    item? s = some ⟨n, false⟩ := by
  cases h with
  | @blank b rest h =>
    -- Brackets and slashes are ASCII and no blanks.
    have hne : ∀ c : UInt8, c < 0x80 → isBlank c.toNat = false → b ≠ c := by
      rintro c hc hblank rfl
      rw [Utf8.ofLead_of_lt hc] at h
      simp [hblank] at h
    have h93 := hne 93 (by decide) (by decide)
    have h41 := hne 41 (by decide) (by decide)
    have h47 := hne 47 (by decide) (by decide)
    simp [item?, h93, h41, h47.symm, h]
  | line h => simp [item?, h]
  | block h => simp [item?, h]

/-- An item that closes nothing separates. -/
theorem separates_of_item? {s : Bytes} {n : Nat} (h : item? s = some ⟨n, false⟩) :
    Separates isBlank s n := by
  match s, h with
  | b :: rest, h =>
    rw [item?] at h
    split_ifs at h with hclose hline hblock
    · simp at h
    · match rest, hline with
      | [], hline => simp [List.isPrefixOf] at hline
      | _ :: rest, hline =>
        simp only [List.isPrefixOf, Bool.and_true, Bool.and_eq_true, beq_iff_eq] at hline
        obtain ⟨rfl, rfl⟩ := hline
        simp only [Option.map_eq_some_iff, Item.mk.injEq, and_true] at h
        obtain ⟨m, hm, rfl⟩ := h
        exact .line hm
    · match rest, hblock with
      | [], hblock => simp [List.isPrefixOf] at hblock
      | _ :: rest, hblock =>
        simp only [List.isPrefixOf, Bool.and_true, Bool.and_eq_true, beq_iff_eq] at hblock
        obtain ⟨rfl, rfl⟩ := hblock
        simp only [Option.map_eq_some_iff, Item.mk.injEq, and_true, List.drop_one,
          List.tail_cons] at h
        obtain ⟨m, hm, rfl⟩ := h
        exact .block hm
    · dsimp only at h
      split_ifs at h with hblank
      simp only [Option.some.injEq, Item.mk.injEq, and_true] at h
      exact h ▸ .blank hblank

theorem item?_closing {b : UInt8} {rest : Bytes} (h : isClosing b = true) :
    item? (b :: rest) = some ⟨1, true⟩ := by
  simp only [isClosing] at h
  simp [item?, h]

/-! ### Passages -/

/-- From `start` one comes to `stop` by passing items, and the last closing bracket on the way
ends at `closed`; without one, `closed` is `start`. -/
inductive Passes (blank : Nat → Bool) (source : Bytes) (start : Nat) : (closed stop : Nat) → Prop
  | refl : Passes blank source start start start
  | separator {closed stop n : Nat} (h : Passes blank source start closed stop)
      (hn : Separates blank (source.drop stop) n) : Passes blank source start closed (stop + n)
  | closing {closed stop : Nat} {b : UInt8} (h : Passes blank source start closed stop)
      (hget : source[stop]? = some b) (hb : isClosing b = true) :
      Passes blank source start (stop + 1) (stop + 1)

namespace Passes

variable {start closed stop : Nat}

/-- A passage does not go back. -/
theorem start_le (h : Passes blank source start closed stop) : start ≤ stop := by
  induction h with
  | refl => exact Nat.le_refl _
  | separator _ _ ih => omega
  | closing _ _ _ ih => omega

/-- The last bracket of a passage is not closed before the passage starts. -/
theorem start_le_closed (h : Passes blank source start closed stop) : start ≤ closed := by
  induction h with
  | refl => exact Nat.le_refl _
  | separator _ _ ih => exact ih
  | closing h _ _ _ =>
    have := h.start_le
    omega

/-- More characters may count as blank. -/
theorem mono {blank' : Nat → Bool} (hle : ∀ c, blank c = true → blank' c = true)
    (h : Passes blank source start closed stop) : Passes blank' source start closed stop := by
  induction h with
  | refl => exact .refl
  | separator _ hn ih =>
    exact ih.separator (hn.mono hle)
  | closing _ hget hb ih => exact ih.closing hget hb

/-- Passages one after the other. -/
theorem trans {middle closed' : Nat} (h : Passes blank source start closed middle)
    (h' : Passes blank source middle closed' stop) :
    Passes blank source start (if closed' = middle then closed else closed') stop := by
  induction h' with
  | refl => simpa using h
  | separator _ hn ih => exact ih.separator hn
  | closing h' hget hb ih =>
    have hle := h'.start_le
    rw [if_neg (by omega)]
    exact ih.closing hget hb

end Passes

/-! ### The search -/

/-- The search skips as many bytes as it is told to. -/
theorem searchFrom_skip (skip offset closed : Nat) (s : Bytes) :
    searchFrom skip offset closed s = searchFrom 0 (offset + skip) closed (s.drop skip) := by
  induction s generalizing skip offset with
  | nil => simp [searchFrom]
  | cons b rest ih =>
    cases skip with
    | zero => rfl
    | succ n =>
      rw [searchFrom, ih, List.drop_succ_cons]
      congr 1
      omega

/-- What the search does at an item. -/
theorem searchFrom_item {offset closed n : Nat} {closes : Bool} {s : Bytes}
    (hitem : item? s = some ⟨n, closes⟩) (hpos : 1 ≤ n) (hcolon : s.head? ≠ some 58) :
    searchFrom 0 offset closed s
      = searchFrom 0 (offset + n) (if closes then offset + 1 else closed) (s.drop n) := by
  match s, hitem with
  | b :: rest, hitem =>
    have hb : (b == 58) = false := by simpa using hcolon
    obtain ⟨m, rfl⟩ := Nat.exists_eq_add_of_le' hpos
    rw [searchFrom, hb, hitem]
    simp only [Bool.false_eq_true, if_false]
    rw [searchFrom_skip, Nat.add_sub_cancel, List.drop_succ_cons]
    congr 1
    omega

/-- What separates does not start with a colon. -/
theorem Separates.head?_ne {s : Bytes} {n : Nat} (h : Separates isBlank s n) :
    s.head? ≠ some 58 := by
  cases h with
  | @blank b rest h =>
    rintro hb
    obtain rfl : b = 58 := by simpa using hb
    rw [Utf8.ofLead_of_lt (by decide), isBlank_colon] at h
    simp at h
  | line => simp
  | block => simp

/-- The search may as well start behind what has been passed. -/
theorem searchFrom_of_passes {start closed stop : Nat}
    (h : Passes isBlank source start closed stop) :
    searchFrom 0 start start (source.drop start) = searchFrom 0 stop closed (source.drop stop) := by
  induction h with
  | refl => rfl
  | @separator closed stop n _ hn ih =>
    rw [ih, searchFrom_item (item?_of_separates hn) hn.pos hn.head?_ne, List.drop_drop]
    rfl
  | @closing closed stop b _ hget hb ih =>
    have hdrop := List.drop_eq_getElem?_toList_append (l := source) (i := stop)
    rw [hget, Option.toList_some, List.singleton_append] at hdrop
    have hne : b ≠ 58 := by
      rintro rfl
      simp [isClosing] at hb
    rw [ih, hdrop, searchFrom_item (item?_closing hb) (Nat.le_refl _) (by simpa using hne)]
    simp

/-- Whatever the search comes upon, it has passed items on the way. -/
theorem passes_of_searchFrom {start closed stop closed' colon : Nat}
    (h : Passes isBlank source start closed stop)
    (hsearch : searchFrom 0 stop closed (source.drop stop) = some (closed', colon)) :
    Passes isBlank source start closed' colon ∧ source[colon]? = some 58 := by
  induction hn : source.length - stop using Nat.strongRecOn generalizing closed stop with
  | ind n ih =>
    cases hs : source.drop stop with
    | nil => simp [hs, searchFrom] at hsearch
    | cons b rest =>
      have hget : source[stop]? = some b := by
        rw [← List.head?_drop, hs]
        rfl
      have hlt : stop < source.length := (List.getElem?_eq_some_iff.1 hget).1
      by_cases hb : b = 58
      · subst hb
        rw [hs, searchFrom] at hsearch
        simp only [beq_self_eq_true, if_true, Option.some.injEq, Prod.mk.injEq] at hsearch
        obtain ⟨rfl, rfl⟩ := hsearch
        exact ⟨h, hget⟩
      have hcolon : (b :: rest).head? ≠ some 58 := by simpa using hb
      cases hitem : item? (b :: rest) with
      | none => simp [hs, searchFrom, hb, hitem] at hsearch
      | some item =>
        obtain ⟨width, closes⟩ := item
        cases closes with
        | false =>
          have hsep := separates_of_item? hitem
          rw [← hs] at hsep hitem hcolon
          rw [searchFrom_item hitem hsep.pos hcolon, List.drop_drop] at hsearch
          have hpos := hsep.pos
          exact ih (source.length - (stop + width)) (by omega) (h.separator hsep) hsearch rfl
        | true =>
          have hclosing : isClosing b = true ∧ width = 1 := by
            rw [item?] at hitem
            split_ifs at hitem with hclose
            · simp only [Option.some.injEq, Item.mk.injEq, and_true] at hitem
              exact ⟨hclose, hitem.symm⟩
            · simp [Option.map_eq_some_iff] at hitem
            · simp [Option.map_eq_some_iff] at hitem
            · simp at hitem
          obtain ⟨hclosing, rfl⟩ := hclosing
          rw [← hs] at hitem hcolon
          rw [searchFrom_item hitem (Nat.le_refl _) hcolon, List.drop_drop] at hsearch
          exact ih (source.length - (stop + 1)) (by omega) (h.closing hget hclosing) hsearch rfl

/-- **What the search finds.** It finds a colon exactly if items lead up to one. -/
theorem findColon_eq_some_iff {start closed colon : Nat} (hstart : start ≤ source.length) :
    findColon source start = some (closed, colon) ↔
      Passes isBlank source start closed colon ∧ source[colon]? = some 58 := by
  have hunfold : findColon source start = searchFrom 0 start start (source.drop start) := by
    simp [findColon, hstart]
  rw [hunfold]
  constructor
  · exact passes_of_searchFrom .refl
  · rintro ⟨h, hcolon⟩
    have hdrop := List.drop_eq_getElem?_toList_append (l := source) (i := colon)
    rw [hcolon, Option.toList_some, List.singleton_append] at hdrop
    rw [searchFrom_of_passes h, hdrop, searchFrom]
    rfl

end Gap

end ColonGap
