import ColonGap.Proofs.Ordering
import ColonGap.Registry
import Mathlib.Data.List.Induction
import Mathlib.Data.List.Nodup

/-!
# What registrations come to

Rules are registered one after the other, under any names and any number of times. What a registry
holds afterwards are the last rules of their names in the history of registrations, and of each name
only one (`Holds`). One registration keeps this (`Holds.register`), and so a run of them does
(`Holds.run`).

Everything that is seen of a registry follows from it. A rule that is looked up is the one that is
listed under its name, and the listing is the only way to sort what is held (`Holds.isListing_iff`):
no two rules tie, so it does not matter in which order they are met and what a sort makes of ties.
Registries of histories with the same last rules look the same (`Holds.all_eq`,
`Holds.lookup?_eq`), and the last rules do not depend on how registrations of different names are
ordered (`Reorders.isLast_iff`).
-/

namespace ColonGap.Registry

variable {r r' : Registry} {history history' others : List Rule} {rule other new : Rule}
  {name : Bytes}

/-! ### The last rules of a history -/

/-- The rule is the last one of its name in a history. -/
def IsLast (history : List Rule) (rule : Rule) : Prop :=
  ∃ earlier later, history = earlier ++ rule :: later ∧ ∀ other ∈ later, other.name ≠ rule.name

/-- Without registrations there is no last rule. -/
theorem not_isLast_nil : ¬ IsLast [] rule := by
  rintro ⟨earlier, later, h, -⟩
  simp at h

/-- The rule that comes last replaces those of its name, and no others. -/
theorem isLast_concat :
    IsLast (history ++ [new]) rule ↔ rule = new ∨ IsLast history rule ∧ rule.name ≠ new.name := by
  constructor
  · rintro ⟨earlier, later, h, hlater⟩
    rcases List.eq_nil_or_concat' later with rfl | ⟨later, final, rfl⟩
    · obtain ⟨-, hnew⟩ := List.append_inj' h rfl
      exact .inl (List.cons.inj hnew).1.symm
    · rw [← List.cons_append, ← List.append_assoc] at h
      obtain ⟨rfl, hnew⟩ := List.append_inj' h rfl
      obtain rfl := (List.cons.inj hnew).1
      refine .inr ⟨⟨earlier, later, rfl, fun other hother ↦ ?_⟩, Ne.symm ?_⟩
      · exact hlater other (List.mem_append_left _ hother)
      · exact hlater new (List.mem_append_right _ List.mem_cons_self)
  · rintro (rfl | ⟨⟨earlier, later, rfl, hlater⟩, hne⟩)
    · exact ⟨history, [], rfl, nofun⟩
    · refine ⟨earlier, later ++ [new], by simp, fun other hother ↦ ?_⟩
      rcases List.mem_append.1 hother with hother | hother
      · exact hlater other hother
      · obtain rfl := List.mem_singleton.1 hother
        exact hne.symm

/-- The last rule of a name is the last of all rules that have the name. -/
theorem isLast_iff_getLast? :
    IsLast history rule ↔ (history.filter (·.name == rule.name)).getLast? = some rule := by
  induction history using List.reverseRecOn with
  | nil => simp [not_isLast_nil]
  | append_singleton history new ih =>
    rw [isLast_concat, ih, List.filter_append]
    by_cases hname : new.name = rule.name
    · simp [hname, eq_comm]
    · have hne : rule ≠ new := fun h ↦ hname (h ▸ rfl)
      simp [hname, Ne.symm hname, hne]

theorem IsLast.mem (h : IsLast history rule) : rule ∈ history := by
  obtain ⟨earlier, later, rfl, -⟩ := h
  exact List.mem_append_right _ List.mem_cons_self

/-- Each name of a history has a last rule. -/
theorem exists_isLast (h : rule ∈ history) :
    ∃ last, IsLast history last ∧ last.name = rule.name := by
  have hmem : rule ∈ history.filter (·.name == rule.name) := by simp [h]
  obtain ⟨last, hlast⟩ := Option.isSome_iff_exists.1
    (List.getLast?_isSome.2 (List.ne_nil_of_mem hmem))
  have hname : last.name = rule.name := by
    simpa using (List.mem_filter.1 (List.mem_of_getLast? hlast)).2
  exact ⟨last, isLast_iff_getLast?.2 (hname ▸ hlast), hname⟩

/-- Two histories have the same rules of each name, in the same order. How rules of different names
are mixed is free. -/
def Reorders (history others : List Rule) : Prop :=
  ∀ name, others.filter (·.name == name) = history.filter (·.name == name)

theorem Reorders.trans (h : Reorders history others) (h' : Reorders others history') :
    Reorders history history' :=
  fun name ↦ (h' name).trans (h name)

/-- Neighbours of different names may change places. -/
theorem reorders_swap (before after : List Rule) (h : rule.name ≠ other.name) :
    Reorders (before ++ rule :: other :: after) (before ++ other :: rule :: after) := by
  intro name
  simp only [List.filter_append, List.filter_cons, beq_iff_eq]
  split
  case isTrue hother =>
    have hrule : rule.name ≠ name := hother ▸ h
    rw [if_neg hrule, if_neg hrule]
  case isFalse => rfl

/-- A history may be reordered behind others. -/
theorem Reorders.append_left (h : Reorders history others) (first : List Rule) :
    Reorders (first ++ history) (first ++ others) := by
  intro name
  rw [List.filter_append, List.filter_append, h name]

theorem Reorders.isLast_iff (h : Reorders history others) :
    IsLast others rule ↔ IsLast history rule := by
  rw [isLast_iff_getLast?, isLast_iff_getLast?, h]

/-! ### Runs of registrations -/

/-- A registry holds the last rules of a history, and no two rules of one name. -/
structure Holds (r : Registry) (history : List Rule) : Prop where
  nodup : (r.rules.map (·.name)).Nodup
  mem_iff : ∀ rule, rule ∈ r.rules ↔ IsLast history rule

/-- The built-in rules are held after they were registered. -/
theorem holds_builtin : Holds builtin builtin.rules where
  nodup := List.nodup_singleton _
  mem_iff rule := by
    have hconcat : builtin.rules = [] ++ [Rule.BeforeColon.rule] := rfl
    rw [hconcat, isLast_concat]
    simp [not_isLast_nil]

/-- **One registration** makes a rule the last of its name. -/
theorem Holds.register (h : Holds r history) (new : Rule) :
    Holds (r.register new) (history ++ [new]) where
  nodup := by
    refine List.nodup_cons.2 ⟨fun hmem ↦ ?_, h.nodup.sublist (List.filter_sublist.map _)⟩
    obtain ⟨rule, hrule, hname⟩ := List.mem_map.1 hmem
    simp [hname] at hrule
  mem_iff rule := by
    rw [Registry.register, List.mem_cons, List.mem_filter, h.mem_iff, isLast_concat, bne_iff_ne]

/-- **Runs of registrations** leave the last rules of the history behind. -/
theorem Holds.run (h : Holds r history) (rules : List Rule) :
    Holds (rules.foldl Registry.register r) (history ++ rules) := by
  induction rules generalizing r history with
  | nil => rwa [List.append_nil]
  | cons rule rules ih => simpa using ih (h.register rule)

/-! ### What is seen of a registry -/

theorem mem_all : rule ∈ r.all ↔ rule ∈ r.rules :=
  mem_sortBy _

namespace Holds

theorem eq_of_name_eq (h : Holds r history) (hrule : rule ∈ r.rules) (hother : other ∈ r.rules)
    (hname : rule.name = other.name) : rule = other :=
  List.inj_on_of_nodup_map h.nodup hrule hother hname

/-- A rule is looked up exactly if it is held under the name. -/
theorem lookup?_eq_some_iff (h : Holds r history) :
    r.lookup? name = some rule ↔ rule ∈ r.rules ∧ rule.name = name := by
  constructor
  · intro hfind
    exact ⟨List.mem_of_find?_eq_some hfind, by simpa using List.find?_some hfind⟩
  · rintro ⟨hrule, hname⟩
    have hfound : (r.lookup? name).isSome = true :=
      List.find?_isSome.2 ⟨rule, hrule, by simp [hname]⟩
    obtain ⟨other, hother⟩ := Option.isSome_iff_exists.1 hfound
    have hsame : other.name = name := by simpa using List.find?_some hother
    rw [hother,
      h.eq_of_name_eq (List.mem_of_find?_eq_some hother) hrule (hsame.trans hname.symm)]

end Holds

/-- A list of the rules that are held, in the order of their names. This is what a sort by name may
give, whatever order it meets the rules in and whatever it makes of ties. -/
structure IsListing (r : Registry) (listed : List Rule) : Prop where
  perm : listed.Perm r.rules
  ascends : listed.Pairwise fun a b ↦ a.name ≤ b.name

theorem isListing_all (r : Registry) : IsListing r r.all where
  perm := sortBy_perm _ _
  ascends := Bytes.pairwise_sortBy (·.name) r.rules

namespace Holds

/-- There is one way to list what is held. -/
theorem isListing_iff (h : Holds r history) {listed : List Rule} :
    IsListing r listed ↔ listed = r.all := by
  refine ⟨fun hlisted ↦ ?_, fun heq ↦ heq ▸ isListing_all r⟩
  have hperm : listed.Perm r.all := hlisted.perm.trans (isListing_all r).perm.symm
  refine hperm.eq_of_pairwise (fun a b ha hb hab hba ↦ ?_) hlisted.ascends (isListing_all r).ascends
  exact h.eq_of_name_eq (hlisted.perm.mem_iff.1 ha) (mem_all.1 hb) (List.le_antisymm hab hba)

/-- The names in the listing ascend, and no two are the same. -/
theorem pairwise_all (h : Holds r history) : r.all.Pairwise fun a b ↦ a.name < b.name := by
  have hnodup : (r.all.map (·.name)).Nodup :=
    ((isListing_all r).perm.map _).nodup_iff.2 h.nodup
  refine ((isListing_all r).ascends.and (List.pairwise_map.1 hnodup)).imp fun hnames ↦ ?_
  by_contra hge
  exact hnames.2 (List.le_antisymm hnames.1 hge)

/-- Each name in the history has one rule in the listing, and no other name has any. -/
theorem existsUnique_iff (h : Holds r history) :
    (∃! rule, rule ∈ r.all ∧ rule.name = name) ↔ ∃ rule ∈ history, rule.name = name := by
  constructor
  · rintro ⟨rule, ⟨hrule, hname⟩, -⟩
    exact ⟨rule, ((h.mem_iff rule).1 (mem_all.1 hrule)).mem, hname⟩
  · rintro ⟨rule, hrule, rfl⟩
    obtain ⟨last, hlast, hname⟩ := exists_isLast hrule
    have hheld := (h.mem_iff last).2 hlast
    exact ⟨last, ⟨mem_all.2 hheld, hname⟩, fun other hother ↦
      h.eq_of_name_eq (mem_all.1 hother.1) hheld (hother.2.trans hname.symm)⟩

/-- Registries of histories with the same last rules hold the same rules. -/
theorem perm (h : Holds r history) (h' : Holds r' history')
    (hlast : ∀ rule, IsLast history' rule ↔ IsLast history rule) : r'.rules.Perm r.rules := by
  refine (List.perm_ext_iff_of_nodup h'.nodup.of_map h.nodup.of_map).2 fun rule ↦ ?_
  rw [h'.mem_iff, h.mem_iff, hlast]

theorem all_eq (h : Holds r history) (h' : Holds r' history')
    (hlast : ∀ rule, IsLast history' rule ↔ IsLast history rule) : r'.all = r.all :=
  h.isListing_iff.1 ⟨(isListing_all r').perm.trans (h.perm h' hlast), (isListing_all r').ascends⟩

/-- Registries whose histories have the same last rules look up the same. -/
theorem lookup?_eq (h : Holds r history) (h' : Holds r' history')
    (hlast : ∀ rule, IsLast history' rule ↔ IsLast history rule) (name : Bytes) :
    r'.lookup? name = r.lookup? name := by
  refine Option.ext fun rule ↦ ?_
  rw [h'.lookup?_eq_some_iff, h.lookup?_eq_some_iff, (h.perm h' hlast).mem_iff]

end Holds

/-- **What registrations come to.** Whatever is registered after the built-in rule, the listing is
strictly in the order of the names. It has one rule for each name that was ever registered, and this
is the last one of the name. A name is looked up to the rule of that name in the listing, if there
is one. The listing is the only list of the rules in the order of their names, and neither it nor
what is looked up depends on the order in which rules of different names were registered. -/
theorem registrations_settle (registrations : List Rule) :
    let r := registrations.foldl register builtin
    let history := builtin.rules ++ registrations
    r.all.Pairwise (fun a b ↦ a.name < b.name) ∧
      (∀ name, (∃! rule, rule ∈ r.all ∧ rule.name = name) ↔ ∃ rule ∈ history, rule.name = name) ∧
      (∀ rule, rule ∈ r.all ↔ IsLast history rule) ∧
      (∀ name rule, r.lookup? name = some rule ↔ rule ∈ r.all ∧ rule.name = name) ∧
      (∀ listed, IsListing r listed ↔ listed = r.all) ∧
      ∀ others, Reorders registrations others →
        (others.foldl register builtin).all = r.all ∧
          ∀ name, (others.foldl register builtin).lookup? name = r.lookup? name := by
  intro r history
  have h : Holds r history := holds_builtin.run registrations
  refine ⟨h.pairwise_all, fun name ↦ h.existsUnique_iff, fun rule ↦ ?_, fun name rule ↦ ?_,
    fun listed ↦ h.isListing_iff, fun others hothers ↦ ?_⟩
  · rw [mem_all, h.mem_iff]
  · rw [mem_all, h.lookup?_eq_some_iff]
  · have h' : Holds (others.foldl register builtin) (builtin.rules ++ others) :=
      holds_builtin.run others
    have hlast (rule : Rule) : IsLast (builtin.rules ++ others) rule ↔ IsLast history rule :=
      (hothers.append_left builtin.rules).isLast_iff
    exact ⟨h.all_eq h' hlast, h.lookup?_eq h' hlast⟩

/-- A rule that finds nothing, with a name and a description. -/
def idle (name description : Bytes) : Rule :=
  { Rule.BeforeColon.rule with name, description, check := fun _ _ ↦ [] }

/-- Two names are registered again, one of them that of the built-in rule, and the first rule of the
other name moves behind the rules between. -/
theorem registrations_settle_replaced :
    let old := idle (utf8 "z") (utf8 "old")
    let gap := idle Rule.BeforeColon.name (utf8 "idle")
    let ant := idle (utf8 "a") (utf8 "other")
    let new := idle (utf8 "z") (utf8 "new")
    let r := [old, gap, ant, new].foldl register builtin
    Reorders [old, gap, ant, new] [gap, ant, old, new] ∧
      IsListing r [ant, gap, new] ∧ r.all = [ant, gap, new] ∧
      r.lookup? (utf8 "z") = some new ∧
      ([gap, ant, old, new].foldl register builtin).all = [ant, gap, new] := by
  intro old gap ant new r
  have hothers : Reorders [old, gap, ant, new] [gap, ant, old, new] :=
    (reorders_swap [] [ant, new] (by decide)).trans (reorders_swap [gap] [new] (by decide))
  have hlisting : IsListing r [ant, gap, new] :=
    ⟨List.perm_append_singleton new [ant, gap], by decide⟩
  obtain ⟨-, -, hlast, hlookup, hlistings, hreorders⟩ :=
    registrations_settle [old, gap, ant, new]
  have hall : r.all = [ant, gap, new] := ((hlistings _).1 hlisting).symm
  have hnew : new ∈ r.all :=
    (hlast new).2 ⟨[Rule.BeforeColon.rule, old, gap, ant], [], rfl, nofun⟩
  exact ⟨hothers, hlisting, hall, (hlookup _ _).2 ⟨hnew, rfl⟩, (hreorders _ hothers).1.trans hall⟩

end ColonGap.Registry
