import ColonGap.Proofs.Patch

/-!
# Which fixes are applied

The fixes that lie within the source are gone through in the order of their offsets, and each is
compared with the one that was applied last and with no other. `chosen` and `passedOver` are the
fixes that are applied and the ones that are skipped, without the text that is made on the way.
Applying is choosing and then patching (`applyFrom_eq`), so everything below is about choosing.

## Why the last one is enough

* What has no conflict with the last has none with any before it (`not_conflicts_trans`), because
  the fixes that were applied lie one behind the other. So no two of them clash.
* What has a conflict with the last clashes with it (`clash_of_conflicts`). This needs the order: an
  insertion at the start of a range comes before the range and is no clash, and behind the range it
  would be skipped for nothing.

A clash is said of two ranges without their order (`Clash`), and `apply_accounts` says that nothing
else is a reason to skip a fix. `apply_perm` says that the order in which the fixes are reported
does not show, unless two of them have different texts for one range. Where all fixes lie apart,
all of them are applied (`apply_of_apart`).
-/

namespace ColonGap

namespace Fix

/-! ### Going through the fixes -/

section Choice

variable {α : Type} (fix : α → Replacement)

/-- The items whose replacements are put in: those without a conflict with the one put in last. -/
def chosen (previous : Option Replacement) : List α → List α
  | [] => []
  | a :: items =>
    if previous.any fun p ↦ conflicts p (fix a) then chosen previous items
    else a :: chosen (some (fix a)) items

/-- The items that are left out. -/
def passedOver (previous : Option Replacement) : List α → List α
  | [] => []
  | a :: items =>
    if previous.any fun p ↦ conflicts p (fix a) then a :: passedOver previous items
    else passedOver (some (fix a)) items

/-- Every fix is either applied or passed over. -/
theorem chosen_append_passedOver_perm (previous : Option Replacement) (items : List α) :
    (chosen fix previous items ++ passedOver fix previous items).Perm items := by
  induction items generalizing previous with
  | nil => exact .refl _
  | cons a items ih =>
    rw [chosen, passedOver]
    split
    · exact List.perm_middle.trans ((ih previous).cons a)
    · exact (ih (some (fix a))).cons a

/-- What is chosen is settled by the replacements alone. -/
theorem map_chosen (previous : Option Replacement) (items : List α) :
    (chosen fix previous items).map fix = chosen id previous (items.map fix) := by
  induction items generalizing previous with
  | nil => rfl
  | cons a items ih =>
    rw [List.map_cons, chosen, chosen, id]
    split
    · exact ih previous
    · rw [List.map_cons, ih]

end Choice

/-- Applying fixes is choosing and then patching. -/
theorem applyFrom_eq (source : Bytes) (done : Nat) (previous : Option Replacement)
    (items : List (Failure × Replacement)) :
    applyFrom source done previous items
      = ⟨patch source done ((chosen Prod.snd previous items).map Prod.snd),
          (chosen Prod.snd previous items).map Prod.fst,
          (passedOver Prod.snd previous items).map Prod.fst⟩ := by
  induction items generalizing done previous with
  | nil => rfl
  | cons item items ih =>
    obtain ⟨f, r⟩ := item
    rw [applyFrom, chosen, passedOver]
    split
    · rw [ih]
      rfl
    · rw [ih]
      rfl

/-! ### Fixes in order -/

theorem inRange_iff {length : Nat} {r : Replacement} :
    inRange length r = true ↔ 0 ≤ r.start ∧ r.start ≤ r.stop ∧ r.stop ≤ length := by
  simp only [inRange, Bool.and_eq_true, decide_eq_true_eq, and_assoc]

/-- The fixes that may be applied are those of the failures that lie within the source. -/
theorem mem_fixable {length : Nat} {failures : List Failure} {f : Failure} {r : Replacement} :
    (f, r) ∈ fixable length failures ↔ f ∈ failures ∧ f.fix = some r ∧ inRange length r = true := by
  rw [fixable, List.mem_filterMap]
  constructor
  · rintro ⟨g, hg, h⟩
    split at h
    · split at h
      · simp only [Option.some.injEq, Prod.mk.injEq] at h
        obtain ⟨rfl, rfl⟩ := h
        exact ⟨hg, by assumption, by assumption⟩
      · simp at h
    · simp at h
  · rintro ⟨hf, hfix, hr⟩
    exact ⟨f, hf, by simp [hfix, hr]⟩

/-- If all fixes lie within the source then all may be applied. -/
theorem map_snd_fixable {length : Nat} {failures : List Failure}
    (h : ∀ r ∈ failures.filterMap (·.fix), inRange length r = true) :
    (fixable length failures).map Prod.snd = failures.filterMap (·.fix) := by
  rw [fixable, List.map_filterMap]
  refine List.filterMap_congr fun f hf ↦ ?_
  cases hfix : f.fix with
  | none => rfl
  | some r => simp [h r (List.mem_filterMap.2 ⟨f, hf, hfix⟩)]

/-- The failures with a fix that may be applied are those whose fix lies within the source. -/
theorem map_fst_fixable (length : Nat) (failures : List Failure) :
    (fixable length failures).map Prod.fst
      = failures.filter fun f ↦ f.fix.any (inRange length) := by
  rw [fixable, List.map_filterMap, ← List.filterMap_eq_filter]
  refine List.filterMap_congr fun f _ ↦ ?_
  cases hfix : f.fix with
  | none => simp [Option.guard, hfix]
  | some r => by_cases hr : inRange length r = true <;> simp [Option.guard, hfix, hr]

/-- The fixes within the source, in the order in which they are gone through. -/
def ordered (source : Bytes) (failures : List Failure) : List (Failure × Replacement) :=
  sortBy (fun a b ↦ precedes a.2 b.2) (fixable source.length failures)

section Ordered

variable {source : Bytes} {failures : List Failure} {item : Failure × Replacement}

theorem mem_ordered : item ∈ ordered source failures ↔
    item.1 ∈ failures ∧ item.1.fix = some item.2 ∧ inRange source.length item.2 = true :=
  (mem_sortBy _).trans mem_fixable

/-- If all fixes lie within the source, all of them are gone through. -/
theorem map_snd_ordered_perm
    (h : ∀ r ∈ failures.filterMap (·.fix), inRange source.length r = true) :
    ((ordered source failures).map Prod.snd).Perm (failures.filterMap (·.fix)) := by
  rw [← map_snd_fixable h]
  exact (sortBy_perm _ _).map _

theorem le_of_mem_ordered (h : item ∈ ordered source failures) : item.2.start ≤ item.2.stop :=
  (inRange_iff.1 (mem_ordered.1 h).2.2).2.1

/-- The ordered fixes are in order. -/
theorem pairwise_ordered (source : Bytes) (failures : List Failure) :
    (ordered source failures).Pairwise fun a b ↦ precedes a.2 b.2 = true :=
  pairwise_sortBy (fun a b ↦ precedes_total a.2 b.2)
    (fun a b c ↦ precedes_trans a.2 b.2 c.2) _

/-- The replacements that are put in. -/
def applied (source : Bytes) (failures : List Failure) : List Replacement :=
  chosen id none ((ordered source failures).map Prod.snd)

/-- The output is the source patched with the fixes that are applied. -/
theorem output_apply (source : Bytes) (failures : List Failure) :
    (apply source failures).output = patch source 0 (applied source failures) := by
  rw [applied, ← map_chosen]
  exact congrArg Outcome.output (applyFrom_eq source 0 none (ordered source failures))

theorem applied_apply (source : Bytes) (failures : List Failure) :
    (apply source failures).applied
      = (chosen Prod.snd none (ordered source failures)).map Prod.fst :=
  congrArg Outcome.applied (applyFrom_eq source 0 none (ordered source failures))

theorem skipped_apply (source : Bytes) (failures : List Failure) :
    (apply source failures).skipped
      = (passedOver Prod.snd none (ordered source failures)).map Prod.fst :=
  congrArg Outcome.skipped (applyFrom_eq source 0 none (ordered source failures))

theorem mem_ordered_of_mem_chosen
    (h : item ∈ chosen Prod.snd none (ordered source failures)) : item ∈ ordered source failures :=
  (chosen_append_passedOver_perm Prod.snd none _).mem_iff.1 (List.mem_append_left _ h)

theorem fix_of_mem_chosen (h : item ∈ chosen Prod.snd none (ordered source failures)) :
    item.1.fix = some item.2 :=
  (mem_ordered.1 (mem_ordered_of_mem_chosen h)).2.1

/-- Only failures that are there are applied. -/
theorem mem_of_mem_applied {f : Failure} (h : f ∈ (apply source failures).applied) :
    f ∈ failures := by
  rw [applied_apply] at h
  obtain ⟨item, hitem, rfl⟩ := List.mem_map.1 h
  exact (mem_ordered.1 (mem_ordered_of_mem_chosen hitem)).1

/-- Every failure that is reported as applied has a fix, which is the one applied. -/
theorem map_fix_applied (source : Bytes) (failures : List Failure) :
    (apply source failures).applied.map (·.fix) = (applied source failures).map some := by
  rw [applied_apply, applied, ← map_chosen, List.map_map, List.map_map]
  exact List.map_congr_left fun item hitem ↦ fix_of_mem_chosen hitem

/-- The fixes of the failures that are reported as applied are those applied. -/
theorem filterMap_fix_applied (source : Bytes) (failures : List Failure) :
    (apply source failures).applied.filterMap (·.fix) = applied source failures := by
  have h := congrArg (List.filterMap id) (map_fix_applied source failures)
  rw [List.filterMap_map, List.filterMap_map] at h
  exact h.trans List.filterMap_some

end Ordered

/-! ### Conflicts -/

theorem conflicts_eq_true_iff {r s : Replacement} : conflicts r s = true ↔
    s.start < r.stop ∨ (r.start = r.stop ∧ s.start = s.stop ∧ r.start = s.start) := by
  simp only [conflicts, Bool.or_eq_true, Bool.and_eq_true, decide_eq_true_eq, beq_iff_eq]
  omega

theorem not_conflicts_trans {r s t : Replacement} (hs : s.start ≤ s.stop)
    (hrs : ¬ conflicts r s = true) (hst : ¬ conflicts s t = true) : ¬ conflicts r t = true := by
  rw [conflicts_eq_true_iff] at hrs hst ⊢
  omega

/-- Two replacements are in each other's way: both replace one byte, or one of them is an insertion
strictly inside the other, or both are insertions at one offset. -/
def Clash (r s : Replacement) : Prop :=
  (∃ i, (r.start ≤ i ∧ i < r.stop) ∧ s.start ≤ i ∧ i < s.stop) ∨
    (r.start = r.stop ∧ s.start < r.start ∧ r.start < s.stop) ∨
    (s.start = s.stop ∧ r.start < s.start ∧ s.start < r.stop) ∨
    (r.start = r.stop ∧ s.start = s.stop ∧ r.start = s.start)

/-- Two ranges clash in either order. -/
theorem Clash.symm {r s : Replacement} (h : Clash r s) : Clash s r := by
  obtain ⟨i, hr, hs⟩ | h | h | ⟨hr, hs, heq⟩ := h
  · exact .inl ⟨i, hs, hr⟩
  · exact .inr (.inr (.inl h))
  · exact .inr (.inl h)
  · exact .inr (.inr (.inr ⟨hs, hr, heq.symm⟩))

theorem conflicts_of_clash {r s : Replacement} (h : Clash r s) : conflicts r s = true := by
  rw [conflicts_eq_true_iff]
  obtain ⟨i, hr, hs⟩ | h | h | h := h <;> omega

/-- Of two replacements in order, the second is skipped only for a clash. -/
theorem clash_of_conflicts {r s : Replacement} (hprecedes : precedes r s = true)
    (hs : s.start ≤ s.stop) (h : conflicts r s = true) : Clash r s := by
  have hstart := start_le_of_precedes hprecedes
  obtain hlt | hinsertions := conflicts_eq_true_iff.1 h
  · rcases hs.lt_or_eq with hne | hempty
    · exact .inl ⟨s.start, ⟨hstart, hlt⟩, le_rfl, hne⟩
    · -- An insertion at the start of a range would come before the range.
      have hne : r.start ≠ s.start := fun heq ↦ by
        rw [precedes, if_pos (beq_iff_eq.2 heq), decide_eq_true_eq] at hprecedes
        omega
      exact .inr (.inr (.inl ⟨hempty, lt_of_le_of_ne hstart hne, hlt⟩))
  · exact .inr (.inr (.inr hinsertions))

section Choice

variable {α : Type} {fix : α → Replacement} {previous : Option Replacement} {items : List α}

/-- No chosen fix has a conflict with the one applied before. -/
theorem not_conflicts_of_mem_chosen (hle : ∀ a ∈ items, (fix a).start ≤ (fix a).stop)
    {p : Replacement} {a : α} (ha : a ∈ chosen fix (some p) items) :
    ¬ conflicts p (fix a) = true := by
  induction items generalizing p with
  | nil => simp [chosen] at ha
  | cons b items ih =>
    obtain ⟨hb, hle⟩ := List.forall_mem_cons.1 hle
    rw [chosen] at ha
    split at ha
    case isTrue => exact ih hle ha
    case isFalse hfree =>
      rcases List.mem_cons.1 ha with rfl | ha
      · exact hfree
      · exact not_conflicts_trans hb hfree (ih hle ha)

/-- No two items that are chosen are in conflict, be they neighbours or not. -/
theorem pairwise_chosen (hle : ∀ a ∈ items, (fix a).start ≤ (fix a).stop)
    (previous : Option Replacement) :
    (chosen fix previous items).Pairwise fun a b ↦ ¬ conflicts (fix a) (fix b) = true := by
  induction items generalizing previous with
  | nil => exact .nil
  | cons a items ih =>
    obtain ⟨-, hle⟩ := List.forall_mem_cons.1 hle
    rw [chosen]
    split
    · exact ih hle previous
    · exact List.pairwise_cons.2 ⟨fun b hb ↦ not_conflicts_of_mem_chosen hle hb, ih hle _⟩

/-- Where there is no conflict, everything is chosen. -/
theorem chosen_of_pairwise (h : items.Pairwise fun a b ↦ ¬ conflicts (fix a) (fix b) = true)
    (hprevious : ∀ p ∈ previous, ∀ a ∈ items, ¬ conflicts p (fix a) = true) :
    chosen fix previous items = items := by
  induction items generalizing previous with
  | nil => rfl
  | cons a items ih =>
    obtain ⟨ha, hitems⟩ := List.pairwise_cons.1 h
    have hfree : ¬ previous.any (fun p ↦ conflicts p (fix a)) = true := fun hconflict ↦ by
      obtain ⟨p, hp, hconflict⟩ := (Option.any_eq_true _ _).1 hconflict
      exact hprevious p hp a List.mem_cons_self hconflict
    have hnext : ∀ p ∈ some (fix a), ∀ b ∈ items, ¬ conflicts p (fix b) = true := by
      rintro p ⟨⟩ b hb
      exact ha b hb
    rw [chosen, if_neg hfree, ih hitems hnext]

/-- An item is left out only for a clash with one that is chosen, or that was put in before. -/
theorem exists_clash_of_mem_passedOver (hle : ∀ a ∈ items, (fix a).start ≤ (fix a).stop)
    (hsorted : items.Pairwise fun a b ↦ precedes (fix a) (fix b) = true)
    (hprevious : ∀ p ∈ previous, ∀ a ∈ items, precedes p (fix a) = true) {b : α}
    (hb : b ∈ passedOver fix previous items) :
    (∃ p ∈ previous, Clash p (fix b)) ∨ ∃ a ∈ chosen fix previous items, Clash (fix a) (fix b) := by
  induction items generalizing previous with
  | nil => simp [passedOver] at hb
  | cons a items ih =>
    obtain ⟨ha, hsorted⟩ := List.pairwise_cons.1 hsorted
    obtain ⟨hale, hle⟩ := List.forall_mem_cons.1 hle
    rw [passedOver] at hb
    rw [chosen]
    split at hb
    case isTrue hconflict =>
      rw [if_pos hconflict]
      rcases List.mem_cons.1 hb with rfl | hb
      · obtain ⟨p, hp, hconflict⟩ := (Option.any_eq_true _ _).1 hconflict
        have hprecedes := hprevious p hp b List.mem_cons_self
        exact .inl ⟨p, hp, clash_of_conflicts hprecedes hale hconflict⟩
      · exact ih hle hsorted (fun p hp c hc ↦ hprevious p hp c (List.mem_cons_of_mem _ hc)) hb
    case isFalse hfree =>
      rw [if_neg hfree]
      have hnext : ∀ p ∈ some (fix a), ∀ c ∈ items, precedes p (fix c) = true := by
        rintro p ⟨⟩ c hc
        exact ha c hc
      -- The one put in before is now `a`, which is chosen.
      obtain ⟨p, ⟨⟩, hclash⟩ | ⟨c, hc, hclash⟩ := ih hle hsorted hnext hb
      · exact .inr ⟨a, List.mem_cons_self, hclash⟩
      · exact .inr ⟨c, List.mem_cons_of_mem _ hc, hclash⟩

end Choice

section Applied

variable {source : Bytes} {failures : List Failure} {r : Replacement}

/-- A fix that is applied is one of the ordered ones. -/
theorem mem_ordered_of_mem_applied (h : r ∈ applied source failures) :
    r ∈ (ordered source failures).map Prod.snd := by
  rw [applied, ← map_chosen] at h
  obtain ⟨item, hitem, rfl⟩ := List.mem_map.1 h
  exact List.mem_map_of_mem (mem_ordered_of_mem_chosen hitem)

theorem pairwise_applied (source : Bytes) (failures : List Failure) :
    (applied source failures).Pairwise fun r s ↦ ¬ conflicts r s = true := by
  rw [applied, ← map_chosen]
  exact List.pairwise_map.2 (pairwise_chosen (fun _ ↦ le_of_mem_ordered) none)

/-- A fix that is passed over clashes with one that is applied. -/
theorem exists_chosen_clash {item : Failure × Replacement}
    (h : item ∈ passedOver Prod.snd none (ordered source failures)) :
    ∃ a ∈ chosen Prod.snd none (ordered source failures), Clash a.2 item.2 := by
  obtain ⟨p, ⟨⟩, -⟩ | hclash := exists_clash_of_mem_passedOver (fun _ ↦ le_of_mem_ordered)
    (pairwise_ordered source failures) (by simp) h
  exact hclash

/-- A replacement within the source is put in or clashes with one that is. -/
theorem mem_applied_or_clash (h : r ∈ (ordered source failures).map Prod.snd) :
    r ∈ applied source failures ∨ ∃ s ∈ applied source failures, Clash s r := by
  obtain ⟨item, hitem, rfl⟩ := List.mem_map.1 h
  have hitem := (chosen_append_passedOver_perm Prod.snd none _).mem_iff.2 hitem
  rw [applied, ← map_chosen]
  rcases List.mem_append.1 hitem with hchosen | hpassed
  · exact .inl (List.mem_map_of_mem hchosen)
  · obtain ⟨a, ha, hclash⟩ := exists_chosen_clash hpassed
    exact .inr ⟨a.2, List.mem_map_of_mem ha, hclash⟩

/-- The applied fixes lie one behind the other within the source. -/
theorem fits_applied (source : Bytes) (failures : List Failure) :
    Fits 0 source.length (applied source failures) := by
  refine fits_of_pairwise ?_ (Nat.zero_le _) fun r hr ↦ ?_
  · refine (pairwise_applied source failures).imp fun {r s} hfree ↦ ?_
    rw [conflicts_eq_true_iff] at hfree
    omega
  · obtain ⟨item, hitem, rfl⟩ := List.mem_map.1 (mem_ordered_of_mem_applied hr)
    exact inRange_iff.1 (mem_ordered.1 hitem).2.2

end Applied

/-! ### Every fix is accounted for -/

/-- The fixes of two failures clash. -/
def Clashes (f g : Failure) : Prop :=
  ∃ r ∈ f.fix, ∃ s ∈ g.fix, Clash r s

/-- **Every fix is accounted for.** A failure with a fix within the source is applied or skipped,
and as often as it is reported; no two of the fixes that are applied clash, and each fix that is
skipped clashes with one that is applied. -/
theorem apply_accounts (source : Bytes) (failures : List Failure) :
    ((apply source failures).applied ++ (apply source failures).skipped).Perm
        (failures.filter fun f ↦ f.fix.any (inRange source.length)) ∧
      (apply source failures).applied.Pairwise (fun f g ↦ ¬ Clashes f g) ∧
      ∀ g ∈ (apply source failures).skipped, ∃ f ∈ (apply source failures).applied,
        Clashes f g := by
  have hperm := chosen_append_passedOver_perm Prod.snd none (ordered source failures)
  rw [applied_apply, skipped_apply]
  refine ⟨?_, ?_, fun g hg ↦ ?_⟩
  · rw [← List.map_append, ← map_fst_fixable]
    exact (hperm.trans (sortBy_perm _ _)).map Prod.fst
  · refine List.pairwise_map.2 ((pairwise_chosen (fun _ ↦ le_of_mem_ordered) none).imp_of_mem ?_)
    rintro a b ha hb hfree ⟨r, hr, s, hs, hclash⟩
    obtain rfl : a.2 = r := Option.some.inj ((fix_of_mem_chosen ha).symm.trans hr)
    obtain rfl : b.2 = s := Option.some.inj ((fix_of_mem_chosen hb).symm.trans hs)
    exact hfree (conflicts_of_clash hclash)
  · obtain ⟨b, hb, rfl⟩ := List.mem_map.1 hg
    obtain ⟨a, ha, hclash⟩ := exists_chosen_clash hb
    have hordered := mem_ordered.1 (hperm.mem_iff.1 (List.mem_append_right _ hb))
    exact ⟨a.1, List.mem_map_of_mem ha, a.2, fix_of_mem_chosen ha, b.2, hordered.2.1, hclash⟩

/-! ### The order of the reports -/

/-- Two fixes that precede each other are equal, if equal ranges have equal texts. -/
theorem eq_of_precedes {r s : Replacement} (hrs : precedes r s = true) (hsr : precedes s r = true)
    (htext : r.start = s.start → r.stop = s.stop → r.text = s.text) : r = s := by
  have hstart : r.start = s.start :=
    le_antisymm (start_le_of_precedes hrs) (start_le_of_precedes hsr)
  simp only [precedes, hstart, beq_self_eq_true, if_true, decide_eq_true_eq] at hrs hsr
  have hstop : r.stop = s.stop := le_antisymm hrs hsr
  cases r
  cases s
  rw [Replacement.mk.injEq]
  exact ⟨hstart, hstop, htext hstart hstop⟩

theorem ordered_perm {failures others : List Failure} (h : failures.Perm others) (source : Bytes) :
    (ordered source failures).Perm (ordered source others) :=
  (sortBy_perm _ _).trans ((h.filterMap _).trans (sortBy_perm _ _).symm)

/-- **The order of the reports does not show.** Where all fixes of one range have one text, the
output and the replacements that are put in are the same for every order of the failures. -/
theorem apply_perm {source : Bytes} {failures others : List Failure} (h : failures.Perm others)
    (htext : ∀ r ∈ failures.filterMap (·.fix), ∀ s ∈ failures.filterMap (·.fix),
      r.start = s.start → r.stop = s.stop → r.text = s.text) :
    (apply source failures).output = (apply source others).output ∧
      (apply source failures).applied.map (·.fix) = (apply source others).applied.map (·.fix) := by
  have hmem : ∀ {r}, r ∈ (ordered source failures).map Prod.snd →
      r ∈ failures.filterMap (·.fix) := fun hr ↦ by
    obtain ⟨item, hitem, rfl⟩ := List.mem_map.1 hr
    exact List.mem_filterMap.2 ⟨item.1, (mem_ordered.1 hitem).1, (mem_ordered.1 hitem).2.1⟩
  have hperm : ((ordered source failures).map Prod.snd).Perm
      ((ordered source others).map Prod.snd) := (ordered_perm h source).map _
  -- Replacements that stand at one place in the order are equal, so the order is known.
  have hordered : (ordered source failures).map Prod.snd = (ordered source others).map Prod.snd :=
    hperm.eq_of_pairwise
      (fun r s hr hs hrs hsr ↦
        eq_of_precedes hrs hsr (htext r (hmem hr) s (hmem (hperm.mem_iff.2 hs))))
      (List.pairwise_map.2 (pairwise_ordered source failures))
      (List.pairwise_map.2 (pairwise_ordered source others))
  have happlied : applied source failures = applied source others := by
    rw [applied, hordered, applied]
  rw [output_apply, output_apply, map_fix_applied, map_fix_applied, happlied]
  exact ⟨rfl, rfl⟩

/-- A range, an insertion at its start that is reported twice, and one inside it: the insertion at
the start and the range are put in, in whatever order they come. -/
theorem apply_perm_fourReports :
    let report := fun start stop text message ↦
      Failure.ofRange start stop (utf8 message) (some ⟨start, stop, utf8 text⟩)
    let failures := [report 1 3 "XY" "range", report 1 1 "-" "one", report 2 2 "+" "inside",
      report 1 1 "-" "two"]
    failures.Perm failures.reverse ∧
      (apply (utf8 "abcd") failures.reverse).output = utf8 "a-XYd" ∧
      (apply (utf8 "abcd") failures.reverse).applied.map (·.fix)
        = [some ⟨1, 1, utf8 "-"⟩, some ⟨1, 3, utf8 "XY"⟩] := by
  intro report failures
  have hperm : failures.Perm failures.reverse := (List.reverse_perm failures).symm
  have h := @apply_perm (utf8 "abcd") _ _ hperm (by decide)
  rw [← h.1, ← h.2]
  exact ⟨hperm, by decide, by decide⟩

-- Two texts for one range: the one that is reported first is put in.
example :
    let a := Failure.ofRange 0 0 [] (some ⟨0, 0, utf8 "a"⟩)
    let b := Failure.ofRange 0 0 [] (some ⟨0, 0, utf8 "b"⟩)
    (apply [] [a, b]).output = utf8 "a" ∧ (apply [] [b, a]).output = utf8 "b" := by
  decide

/-! ### Fixes that lie apart -/

/-- Two replacements that do not overlap and start at different offsets. -/
def Apart (r s : Replacement) : Prop :=
  (r.stop ≤ s.start ∨ s.stop ≤ r.start) ∧ r.start ≠ s.start

theorem Apart.symm {r s : Replacement} (h : Apart r s) : Apart s r :=
  ⟨h.1.symm, h.2.symm⟩

/-- A range that lies before another has no conflict with it. -/
theorem Before.not_conflicts {r s : Replacement} (h : Before r s) : ¬ conflicts r s = true := by
  obtain ⟨hstart, hstop⟩ := h
  rw [conflicts_eq_true_iff]
  omega

/-- **Fixes that lie apart** are all applied, in the order of their offsets. -/
theorem apply_of_apart {source : Bytes} {failures : List Failure}
    (hin : ∀ r ∈ failures.filterMap (·.fix), inRange source.length r = true)
    (hapart : (failures.filterMap (·.fix)).Pairwise Apart) :
    ∃ rs : List Replacement,
      rs.Perm (failures.filterMap (·.fix)) ∧ rs.Pairwise Before ∧ Fits 0 source.length rs ∧
        (apply source failures).output = patch source 0 rs ∧
        (apply source failures).applied.filterMap (·.fix) = rs ∧
        (apply source failures).skipped = [] := by
  have hperm := map_snd_ordered_perm hin
  have hbefore : ((ordered source failures).map Prod.snd).Pairwise Before := by
    have hsorted : ((ordered source failures).map Prod.snd).Pairwise
        fun r s ↦ precedes r s = true := List.pairwise_map.2 (pairwise_ordered source failures)
    refine (hsorted.and (hperm.symm.pairwise hapart Apart.symm)).imp_of_mem ?_
    rintro r s - hs ⟨hle, hapart, hne⟩
    have hstart := start_le_of_precedes hle
    have hs := inRange_iff.1 (hin s (hperm.mem_iff.1 hs))
    constructor <;> omega
  have hchosen : chosen Prod.snd none (ordered source failures) = ordered source failures :=
    chosen_of_pairwise ((List.pairwise_map.1 hbefore).imp Before.not_conflicts) (by simp)
  have happlied : applied source failures = (ordered source failures).map Prod.snd := by
    rw [applied, ← map_chosen, hchosen]
  have hskipped : passedOver Prod.snd none (ordered source failures) = [] := by
    have hlength := (chosen_append_passedOver_perm Prod.snd none
      (ordered source failures)).length_eq
    rw [hchosen, List.length_append] at hlength
    exact List.length_eq_zero_iff.1 (by omega)
  refine ⟨applied source failures, by rwa [happlied], by rwa [happlied],
    fits_applied source failures, output_apply source failures,
    filterMap_fix_applied source failures, ?_⟩
  rw [skipped_apply, hskipped, List.map_nil]

end Fix

end ColonGap
