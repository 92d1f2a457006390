import ColonGap.Proofs.Effects
import ColonGap.Proofs.Ordering

/-!
# Writes of different files commute

Two files of a tree stand at places of which neither leads through the other, so down to where the
places part both writes go through the same entry, and there they go through different ones, which
can be set in either order (`FileNode.put_comm`).

## Processing in two halves

What comes of a target is settled by its source and by what the file system says to a text at its
path: the result (`resultOf`) and the text that is written (`written?`), which may be a part of the
one that was to be written. So a list of targets at different places can be processed by reading all
of them first and writing what is to be written in any order (`processAll_eq`, `deposits_perm`).
-/

namespace ColonGap

namespace FileNode

@[simp] theorem entries_directory (entries : List (Bytes × FileNode)) :
    (directory entries).entries = entries := rfl

/-- Files at different places can be written in either order. -/
theorem put_comm {p q : List Bytes} (hne : p ≠ q) {node : FileNode} {a b : Bytes}
    (hp : look p node = some (some a)) (hq : look q node = some (some b)) (a' b' : Bytes) :
    put (file a') p (put (file b') q node) = put (file b') q (put (file a') p node) := by
  induction p generalizing q node with
  | nil =>
    cases q with
    | nil => exact absurd rfl hne
    | cons name q =>
      -- What stands here is a file, so nothing is below it.
      cases node with
      | file content => cases hq
      | directory entries => cases hp
  | cons name p ih =>
    cases q with
    | nil =>
      cases node with
      | file content => cases hp
      | directory entries => cases hq
    | cons name' q =>
      rw [look_cons, Option.bind_eq_some_iff] at hp hq
      obtain ⟨child, hchild, hp⟩ := hp
      obtain ⟨child', hchild', hq⟩ := hq
      simp only [put, entries_directory, Entries.get?_put, hchild, hchild', Option.getD_some]
      by_cases hname : name = name'
      · subst hname
        obtain rfl : child = child' := Option.some.inj (hchild.symm.trans hchild')
        have hbelow := ih (fun h ↦ hne (by rw [h])) hp hq
        simp only [if_true, Option.getD_some, Entries.put_put, hbelow]
      · simp only [if_neg hname, if_neg (Ne.symm hname), Option.getD_some]
        rw [Entries.put_comm hname]

end FileNode

namespace Workspace

variable {w : Workspace} {path path' old old' : Bytes}

/-- Files at different places can be written in either order. -/
theorem write_comm (h : w.read path = .ok old) (h' : w.read path' = .ok old')
    (hne : ∀ names, w.locate path = .ok names → w.locate path' ≠ .ok names) (new new' : Bytes) :
    (w.write path new).write path' new' = (w.write path' new').write path new := by
  obtain ⟨names, hnames, hlook⟩ := exists_of_read h
  obtain ⟨names', hnames', hlook'⟩ := exists_of_read h'
  have hplaces : names ≠ names' := fun heq ↦ hne names hnames (heq ▸ hnames')
  have hfirst : (w.write path new).locate path' = .ok names' := by
    rw [(agreesOutside_write h new).locate, hnames']
  have hsecond : (w.write path' new').locate path = .ok names := by
    rw [(agreesOutside_write h' new').locate, hnames]
  rw [write, hfirst, write.eq_def (w.write path' new'), hsecond]
  simp only [write, hnames, hnames', FileTree.put, FileTree.file,
    FileNode.put_comm hplaces hlook hlook']

/-- Files are where files were, and directories where directories were. -/
abbrev SameShape (w w' : Workspace) : Prop :=
  AgreesOutside (fun _ ↦ True) w w'

theorem AgreesOutside.sameShape {P : List Bytes → Prop} {w' : Workspace}
    (h : AgreesOutside P w w') : SameShape w w' :=
  h.mono fun _ _ ↦ trivial

/-- A file can be read still. -/
theorem SameShape.exists_read {w' : Workspace} (h : SameShape w w')
    (hread : w.read path = .ok old) : ∃ content, w'.read path = .ok content := by
  obtain ⟨names, hnames, hlook⟩ := exists_of_read hread
  have hshape := h.shape names
  rw [hlook, Option.map_some] at hshape
  obtain ⟨content?, hlook', hsome⟩ := Option.map_eq_some_iff.1 hshape
  obtain ⟨content, rfl⟩ := Option.isSome_iff_exists.1 hsome
  refine ⟨content, ?_⟩
  simp only [read_eq, h.locate, hnames, hlook']

end Workspace

namespace Run

variable {mode : Mode} {settings : List Setting} {stdin : Except Bytes Bytes}
  {faults : WriteFaults} {w w' : Workspace} {s t : Target} {targets : List Target}

/-! ### Reading, and what comes of it -/

/-- Whether mending a source leads to a write. -/
def writes (mode : Mode) (t : Target) (source : Bytes) (found : Findings) : Bool :=
  mode == .fix && !t.isStdin && found.output != source

/-- The result of a target whose source has been read. -/
def resultOf (mode : Mode) (settings : List Setting) (faults : WriteFaults) (t : Target) :
    Except TargetError Bytes → Result
  | .error e => .failed t.name e
  | .ok source =>
    match examine mode settings t.name source with
    | .error e => .failed t.name e
    | .ok found =>
      let result := .ofFindings mode t source found
      if writes mode t source found then result.withFault (faults t.name found.output) else result

/-- The text that is written to a target whose source has been read, if there is one. -/
def written? (mode : Mode) (settings : List Setting) (faults : WriteFaults) (t : Target) :
    Except TargetError Bytes → Option Bytes
  | .error _ => none
  | .ok source =>
    match examine mode settings t.name source with
    | .error _ => none
    | .ok found =>
      if writes mode t source found then Workspace.stored? faults t.name found.output else none

/-- Write a text to a target, if there is one. -/
def deposit (w : Workspace) (t : Target) (text? : Option Bytes) : Workspace :=
  text?.elim w (w.write t.name)

/-- A target is processed by reading it, writing what comes of it, and keeping the result. -/
theorem process_eq (mode : Mode) (settings : List Setting) (stdin : Except Bytes Bytes)
    (faults : WriteFaults) (w : Workspace) (t : Target) :
    process mode settings stdin faults w t
      = (deposit w t (written? mode settings faults t (sourceOf w stdin t)),
        resultOf mode settings faults t (sourceOf w stdin t)) := by
  rw [process]
  cases sourceOf w stdin t with
  | error e => rfl
  | ok source =>
    simp only [written?, resultOf]
    cases examine mode settings t.name source with
    | error e => rfl
    | ok found =>
      simp only [Workspace.store_eq]
      cases hwrites : writes mode t source found <;>
        (rw [writes] at hwrites; simp only [hwrites]; rfl)

/-- Only files that can be read are written. -/
theorem exists_of_written? {text : Bytes}
    (h : written? mode settings faults t (sourceOf w stdin t) = some text) :
    t.isStdin = false ∧ ∃ old, w.read t.name = .ok old := by
  cases hsource : sourceOf w stdin t with
  | error e =>
    rw [hsource] at h
    cases h
  | ok source =>
    rw [hsource, written?] at h
    split at h
    case h_1 => cases h
    case h_2 found _ =>
      have ht : t.isStdin = false := by
        by_contra ht
        simp [writes, ht] at h
      exact ⟨ht, source, read_of_sourceOf ht hsource⟩

/-! ### Targets at different places -/

theorem ApartIn.symm (h : ApartIn w s t) : ApartIn w t s :=
  fun ht hs names hnames hnames' ↦ h hs ht names hnames' hnames

section Deposits

variable (mode settings stdin faults)

/-- Write to a target what comes of it as it was in the workspace `w`. -/
def depositFrom (w current : Workspace) (t : Target) : Workspace :=
  deposit current t (written? mode settings faults t (sourceOf w stdin t))

/-- As long as files stay files, a target is written at its place. -/
theorem agreesOutside_depositFrom (h : w.SameShape w') (t : Target) :
    w'.AgreesOutside (Touches w [t]) (depositFrom mode settings stdin faults w w' t) := by
  rw [depositFrom]
  cases htext : written? mode settings faults t (sourceOf w stdin t) with
  | none => exact .refl w'
  | some text =>
    obtain ⟨ht, old, hread⟩ := exists_of_written? htext
    obtain ⟨content, hread'⟩ := h.exists_read hread
    refine (Workspace.agreesOutside_write hread' text).mono fun names hnames ↦ ?_
    rw [h.locate] at hnames
    exact ⟨t, List.mem_singleton_self t, ht, hnames⟩

theorem sameShape_depositFrom (h : w.SameShape w') (t : Target) :
    w.SameShape (depositFrom mode settings stdin faults w w' t) :=
  h.trans (agreesOutside_depositFrom mode settings stdin faults h t).sameShape

/-- Writes to targets change the places of these targets. -/
theorem agreesOutside_deposits (h : w.SameShape w') (targets : List Target) :
    w'.AgreesOutside (Touches w targets)
      (targets.foldl (depositFrom mode settings stdin faults w) w') := by
  induction targets generalizing w' with
  | nil => exact .refl w'
  | cons t targets ih =>
    have hfirst := agreesOutside_depositFrom mode settings stdin faults h t
    have hrest := ih (sameShape_depositFrom mode settings stdin faults h t)
    refine (hfirst.mono ?_).trans (hrest.mono ?_)
    · rintro names ⟨s, hs, hnames⟩
      rw [List.mem_singleton.1 hs] at hnames
      exact ⟨t, List.mem_cons_self, hnames⟩
    · rintro names ⟨s, hs, hnames⟩
      exact ⟨s, List.mem_cons_of_mem _ hs, hnames⟩

/-- Writes to other places leave the source of a target alone. -/
theorem sourceOf_deposits (hapart : ∀ s ∈ targets, ApartIn w s t) :
    sourceOf (targets.foldl (depositFrom mode settings stdin faults w) w) stdin t
      = sourceOf w stdin t := by
  rw [sourceOf, sourceOf]
  cases ht : t.isStdin with
  | true => rfl
  | false =>
    rw [(agreesOutside_deposits mode settings stdin faults (.refl w) targets).read]
    rintro names hnames ⟨s, hs, hfile, hnames'⟩
    exact hapart s hs hfile ht names hnames' hnames

/-- Targets behind others that have been written are processed as if each were the only one. -/
theorem processAll_deposits {done : List Target} (h : (done ++ targets).Pairwise (ApartIn w)) :
    processAll mode settings stdin faults (done.foldl (depositFrom mode settings stdin faults w) w) targets
      = ((done ++ targets).foldl (depositFrom mode settings stdin faults w) w,
        targets.map fun t ↦ resultOf mode settings faults t (sourceOf w stdin t)) := by
  induction targets generalizing done with
  | nil => simp [processAll]
  | cons t targets ih =>
    have hdone : ∀ s ∈ done, ApartIn w s t := fun s hs ↦
      (List.pairwise_append.1 h).2.2 s hs t List.mem_cons_self
    have hrest := @ih (done ++ [t]) (by simpa using h)
    rw [List.foldl_append, List.foldl_cons, List.foldl_nil, List.append_assoc,
      List.singleton_append] at hrest
    rw [processAll, process_eq, sourceOf_deposits mode settings stdin faults hdone, ← depositFrom]
    simp only [hrest, List.map_cons]

/-- Targets at different places are processed as if each were the only one. -/
theorem processAll_eq (h : targets.Pairwise (ApartIn w)) :
    processAll mode settings stdin faults w targets
      = (targets.foldl (depositFrom mode settings stdin faults w) w,
        targets.map fun t ↦ resultOf mode settings faults t (sourceOf w stdin t)) :=
  @processAll_deposits mode settings stdin faults w targets [] h

/-- Two targets at different places can be written in either order. -/
theorem depositFrom_comm (h : w.SameShape w') (hapart : ApartIn w s t) :
    depositFrom mode settings stdin faults w (depositFrom mode settings stdin faults w w' s) t
      = depositFrom mode settings stdin faults w (depositFrom mode settings stdin faults w w' t) s := by
  rw [depositFrom, depositFrom, depositFrom, depositFrom]
  cases hs : written? mode settings faults s (sourceOf w stdin s) with
  | none => rfl
  | some text =>
    cases ht : written? mode settings faults t (sourceOf w stdin t) with
    | none => rfl
    | some text' =>
      obtain ⟨hfile, old, hread⟩ := exists_of_written? hs
      obtain ⟨hfile', old', hread'⟩ := exists_of_written? ht
      obtain ⟨content, hread⟩ := h.exists_read hread
      obtain ⟨content', hread'⟩ := h.exists_read hread'
      refine Workspace.write_comm hread hread' (fun names ↦ ?_) text text'
      rw [h.locate, h.locate]
      exact hapart hfile hfile' names

/-- **Writes commute.** Targets at different places can be written in any order. -/
theorem deposits_perm {targets' : List Target} (hperm : targets.Perm targets')
    (hapart : targets.Pairwise (ApartIn w)) (h : w.SameShape w') :
    targets.foldl (depositFrom mode settings stdin faults w) w'
      = targets'.foldl (depositFrom mode settings stdin faults w) w' := by
  induction hperm generalizing w' with
  | nil => rfl
  | cons t _ ih =>
    exact ih (List.pairwise_cons.1 hapart).2 (sameShape_depositFrom mode settings stdin faults h t)
  | swap s t targets =>
    have hst : ApartIn w t s := (List.pairwise_cons.1 hapart).1 s List.mem_cons_self
    rw [List.foldl_cons, List.foldl_cons, depositFrom_comm mode settings stdin faults h hst,
      List.foldl_cons, List.foldl_cons]
  | trans hperm _ ih ih' =>
    have hapart' := (hperm.pairwise_iff ApartIn.symm).1 hapart
    exact (ih hapart h).trans (ih' hapart' h)

end Deposits

end Run

end ColonGap
