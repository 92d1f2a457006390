import ColonGap.Ordering
import ColonGap.Text.Bytes
import Mathlib.Data.List.Basic
import Mathlib.Tactic.Common

/-!
# What sorting does

`sortBy` permutes a list (`sortBy_perm`), and the result ascends if the order is total and
transitive (`pairwise_sortBy`). Both go through `insertBy`, and the first of them needs nothing of
the order.

Elements of which neither exceeds the other are *tied*, and keep the order they had
(`filter_sortBy`). An ascending list is known from its runs of tied elements (`eq_of_filter_tied`),
so these two say together that there is one stable way to sort a list.

Texts are sorted in many places, by an order that is the one of lists of bytes (`Bytes.le_iff`).
-/

namespace ColonGap

/-! ### Sorting -/

variable {α : Type} (le : α → α → Bool)

/-- Inserting an element adds it and nothing else. -/
theorem insertBy_perm (a : α) (items : List α) : (insertBy le a items).Perm (a :: items) := by
  induction items with
  | nil => exact .refl _
  | cons b items ih =>
    rw [insertBy]
    split
    · exact .refl _
    · exact (ih.cons b).trans (.swap a b items)

/-- Sorting keeps the elements. -/
theorem sortBy_perm (items : List α) : (sortBy le items).Perm items := by
  induction items with
  | nil => exact .refl _
  | cons a items ih => exact (insertBy_perm le a _).trans (ih.cons a)

@[simp] theorem mem_sortBy {a : α} {items : List α} : a ∈ sortBy le items ↔ a ∈ items :=
  (sortBy_perm le items).mem_iff

variable {le}

/-- Inserting an element keeps a list in order. -/
theorem pairwise_insertBy (total : ∀ a b, le a b = true ∨ le b a = true)
    (trans : ∀ a b c, le a b = true → le b c = true → le a c = true) (a : α) {items : List α}
    (h : items.Pairwise fun a b ↦ le a b = true) :
    (insertBy le a items).Pairwise fun a b ↦ le a b = true := by
  induction items with
  | nil => simp [insertBy]
  | cons b items ih =>
    obtain ⟨hb, hitems⟩ := List.pairwise_cons.1 h
    rw [insertBy]
    split
    case isTrue hab =>
      refine List.pairwise_cons.2 ⟨fun c hc ↦ ?_, h⟩
      rcases List.mem_cons.1 hc with rfl | hc
      · exact hab
      · exact trans a b c hab (hb c hc)
    case isFalse hab =>
      refine List.pairwise_cons.2 ⟨fun c hc ↦ ?_, ih hitems⟩
      rcases List.mem_cons.1 ((insertBy_perm le a items).mem_iff.1 hc) with rfl | hc
      · exact (total b c).resolve_right hab
      · exact hb c hc

/-- Sorting by a total and transitive order gives an ascending list. -/
theorem pairwise_sortBy (total : ∀ a b, le a b = true ∨ le b a = true)
    (trans : ∀ a b c, le a b = true → le b c = true → le a c = true) (items : List α) :
    (sortBy le items).Pairwise fun a b ↦ le a b = true := by
  induction items with
  | nil => exact .nil
  | cons a items ih => exact pairwise_insertBy total trans a ih

/-- Sorting by a text that elements have gives an ascending list. -/
theorem Bytes.pairwise_sortBy (key : α → Bytes) (items : List α) :
    (sortBy (fun a b ↦ (key a).le (key b)) items).Pairwise fun a b ↦ key a ≤ key b := by
  have htotal (a b : α) : (key a).le (key b) = true ∨ (key b).le (key a) = true := by
    simpa only [Bytes.le_iff] using List.le_total (key a) (key b)
  have htrans (a b c : α) (hab : (key a).le (key b) = true) (hbc : (key b).le (key c) = true) :
      (key a).le (key c) = true := by
    rw [Bytes.le_iff] at hab hbc ⊢
    exact List.le_trans hab hbc
  exact (ColonGap.pairwise_sortBy htotal htrans items).imp (Bytes.le_iff _ _).1

/-- Sorting texts gives an ascending list. -/
theorem Bytes.pairwise_le_sortBy (texts : List Bytes) :
    (sortBy Bytes.le texts).Pairwise (· ≤ ·) :=
  Bytes.pairwise_sortBy id texts

/-- What texts are sorted to does not depend on the order they had. -/
theorem Bytes.sortBy_eq_of_perm {texts others : List Bytes} (h : texts.Perm others) :
    sortBy Bytes.le texts = sortBy Bytes.le others := by
  have hperm : (sortBy Bytes.le texts).Perm (sortBy Bytes.le others) :=
    (sortBy_perm _ texts).trans (h.trans (sortBy_perm _ others).symm)
  exact hperm.eq_of_pairwise (fun _ _ _ _ hst hts ↦ List.le_antisymm hst hts)
    (Bytes.pairwise_le_sortBy texts) (Bytes.pairwise_le_sortBy others)

/-! ### Ties -/

section Ties

variable {p : α → Bool}

/-- Inserting an element keeps the order of those it is tied with. -/
theorem filter_insertBy (hp : ∀ a b, p a = true → p b = true → le a b = true) (a : α)
    (items : List α) : (insertBy le a items).filter p = (a :: items).filter p := by
  induction items with
  | nil => rfl
  | cons b items ih =>
    rw [insertBy]
    split
    case isTrue => rfl
    case isFalse hab =>
      rw [List.filter_cons, ih]
      by_cases ha : p a = true
      · -- Only what `a` exceeds is passed, and nothing tied with `a` is that.
        have hb : ¬ p b = true := fun hb ↦ hab (hp a b ha hb)
        rw [if_neg hb, List.filter_cons_of_pos ha, List.filter_cons_of_pos ha,
          List.filter_cons_of_neg hb]
      · rw [List.filter_cons_of_neg ha, List.filter_cons_of_neg ha, List.filter_cons]

/-- **Sorting is stable.** Elements none of which exceeds another keep their order. -/
theorem filter_sortBy (hp : ∀ a b, p a = true → p b = true → le a b = true) (items : List α) :
    (sortBy le items).filter p = items.filter p := by
  induction items with
  | nil => rfl
  | cons a items ih =>
    rw [sortBy, filter_insertBy hp, List.filter_cons, List.filter_cons, ih]

end Ties

variable (le) in
/-- Neither of two elements exceeds the other. -/
def tied (a b : α) : Bool :=
  le a b && le b a

theorem tied_self (refl : ∀ a, le a a = true) (a : α) : tied le a a = true := by
  rw [tied, refl, Bool.and_self]

theorem mem_iff_of_filter_tied (refl : ∀ a, le a a = true) {items others : List α}
    (h : ∀ a, items.filter (tied le a) = others.filter (tied le a)) (a : α) :
    a ∈ items ↔ a ∈ others := by
  have ha := congrArg (a ∈ ·) (h a)
  simpa [tied_self refl] using ha

/-- **Ascending lists with the same ties are equal.** -/
theorem eq_of_filter_tied (refl : ∀ a, le a a = true) {items others : List α}
    (hitems : items.Pairwise fun a b ↦ le a b = true)
    (hothers : others.Pairwise fun a b ↦ le a b = true)
    (h : ∀ a, items.filter (tied le a) = others.filter (tied le a)) : items = others := by
  have hmem := mem_iff_of_filter_tied refl h
  induction items generalizing others with
  | nil =>
    refine (List.eq_nil_iff_forall_not_mem.2 fun a ha ↦ ?_).symm
    simpa using (hmem a).2 ha
  | cons a items ih =>
    cases others with
    | nil => simpa using (hmem a).1 List.mem_cons_self
    | cons b others =>
      obtain ⟨ha, hitems'⟩ := List.pairwise_cons.1 hitems
      obtain ⟨hb, hothers'⟩ := List.pairwise_cons.1 hothers
      -- Each of the heads is in both lists, so neither exceeds the other.
      have hab : le a b = true := by
        rcases List.mem_cons.1 ((hmem b).2 List.mem_cons_self) with rfl | hin
        · exact refl b
        · exact ha b hin
      have hba : le b a = true := by
        rcases List.mem_cons.1 ((hmem a).1 List.mem_cons_self) with rfl | hin
        · exact refl a
        · exact hb a hin
      have hheads : tied le a b = true := by rw [tied, hab, hba, Bool.and_self]
      have hrun := h a
      rw [List.filter_cons_of_pos (tied_self refl a), List.filter_cons_of_pos hheads] at hrun
      obtain rfl : a = b := (List.cons.inj hrun).1
      have htails : ∀ c, items.filter (tied le c) = others.filter (tied le c) := fun c ↦ by
        have hc := h c
        rw [List.filter_cons, List.filter_cons] at hc
        split at hc
        · exact (List.cons.inj hc).2
        · exact hc
      rw [ih hitems' hothers' htails (mem_iff_of_filter_tied refl htails)]

end ColonGap
