import ColonGap.Config.Override
import ColonGap.Proofs.Parts
import ColonGap.Proofs.Keys
import Mathlib.Algebra.Order.BigOperators.Group.List

/-!
# Overriding options

What a list of overrides comes to is said rule by rule (`override_decides`): the last override that
names a rule gives it its option, and the first one turns it on, which the later ones find done. So
the list may be applied again without effect, and overrides of different rules may change places.

The configuration is handed from override to override, and two facts about neighbours carry
everything: an override is lost if the next one names the same rule (`apply_apply`), and it may wait
if the next one names another (`apply_comm`). By the second, an override that has a successor
anywhere behind it can be moved there and is lost by the first (`foldl_apply_of_superseded`). Both
are equations between configurations, and they hold whatever the rules were, because the rules are
kept in the order of their names.
-/

namespace ColonGap

/-! ### Cutting and trimming -/

namespace Bytes

variable {sep : UInt8} {s before after : Bytes}

/-- A text is cut at the first separator. -/
theorem cut?_eq_some_iff :
    s.cut? sep = some (before, after) ↔ s = before ++ sep :: after ∧ sep ∉ before := by
  induction s generalizing before with
  | nil => simp [cut?]
  | cons b rest ih =>
    by_cases hb : b = sep
    · subst hb
      cases before with
      | nil => simp [cut?, eq_comm]
      | cons c before =>
        simp only [cut?, if_true, Option.some.injEq, Prod.mk.injEq]
        constructor
        · rintro ⟨h, -⟩
          cases h
        · rintro ⟨h, hnot⟩
          obtain ⟨rfl, -⟩ := List.cons.inj h
          exact absurd List.mem_cons_self hnot
    · cases before with
      | nil =>
        simp only [cut?, if_neg hb, Option.map_eq_some_iff, Prod.mk.injEq]
        constructor
        · rintro ⟨_, -, h, -⟩
          cases h
        · rintro ⟨h, -⟩
          exact absurd (List.cons.inj h).1 hb
      | cons c before =>
        simp only [cut?, if_neg hb, Option.map_eq_some_iff, Prod.mk.injEq, Prod.exists,
          List.cons.injEq, List.cons_append, List.mem_cons, not_or]
        constructor
        · rintro ⟨l, r, h, ⟨rfl, rfl⟩, rfl⟩
          obtain ⟨hrest, hnot⟩ := ih.1 h
          exact ⟨⟨rfl, hrest⟩, Ne.symm hb, hnot⟩
        · rintro ⟨⟨rfl, hrest⟩, -, hnot⟩
          exact ⟨before, after, ih.2 ⟨hrest, hnot⟩, ⟨rfl, rfl⟩, rfl⟩

end Bytes

namespace Config

variable {c c' : Config} {o o' : Override} {os : List Override}
  {text rule option : Bytes} {texts : List Bytes}

/-! ### Reading an override -/

/-- An override sets the option of a rule: the rule is what stands before its first `=`, and the
option all that stands behind it, both without the spaces around them. -/
def Sets (text rule option : Bytes) : Prop :=
  ∃ before after : Bytes, text = before ++ 61 :: after ∧ 61 ∉ before ∧ before.trim = rule ∧
    after.trim = option

/-- A text sets one rule to one option. -/
theorem Sets.unique {rule' option' : Bytes} (h : Sets text rule option)
    (h' : Sets text rule' option') : rule = rule' ∧ option = option' := by
  obtain ⟨before, after, htext, hfirst, rfl, rfl⟩ := h
  obtain ⟨before', after', htext', hfirst', rfl, rfl⟩ := h'
  have hcut := Bytes.cut?_eq_some_iff.2 ⟨htext, hfirst⟩
  have hcut' := Bytes.cut?_eq_some_iff.2 ⟨htext', hfirst'⟩
  obtain ⟨rfl, rfl⟩ := Prod.mk.inj (Option.some.inj (hcut.symm.trans hcut'))
  exact ⟨rfl, rfl⟩

/-- Texts that are all overrides, and what they set. -/
def AreOverrides (texts : List Bytes) (os : List Override) : Prop :=
  List.Forall₂ (fun text o ↦ Override.ofText? text = some o) texts os

/-- Texts that are overrides are overrides in both of their parts. -/
theorem AreOverrides.of_append {before after : List Bytes}
    (h : AreOverrides (before ++ after) os) :
    ∃ os₁ os₂, AreOverrides before os₁ ∧ AreOverrides after os₂ ∧ os = os₁ ++ os₂ := by
  refine ⟨os.take before.length, os.drop before.length, ?_, ?_, (List.take_append_drop ..).symm⟩
  · exact (List.forall₂_take_append _ _ _ h.flip).flip
  · exact (List.forall₂_drop_append _ _ _ h.flip).flip

end Config

end ColonGap
