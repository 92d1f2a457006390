import ColonGap.Proofs.Keys
import ColonGap.Workspace
import Mathlib.Data.List.Basic
import Mathlib.Tactic.Common

/-!
# What writing a file changes

A workspace is looked at place by place: `Workspace.look` tells whether nothing, a directory or a
file stands there, and what the file holds. Where a path leads depends on where directories and
entries are and not on what files hold, so replacing the content of a file leads no path astray
(`AgreesOutside.locate`).

`AgreesOutside` relates a workspace to what becomes of it when only files at certain places are
written. It is what single steps have and what is put together over a run. It holds of a write that
is refused or broken off as it does of one that succeeds (`agreesOutside_store`).
-/

namespace ColonGap

namespace FileNode

/-- What a file holds; a directory holds no text. -/
def content? : FileNode → Option Bytes
  | file content => some content
  | directory _ => none

/-- What stands at a place: nothing, a directory, or a file with its content. -/
def look (names : List Bytes) (node : FileNode) : Option (Option Bytes) :=
  (node.get? names).map content?

@[simp] theorem look_nil (node : FileNode) : look [] node = some node.content? := rfl

/-- What stands below a name is what stands below the entry of that name. -/
theorem look_cons (name : Bytes) (names : List Bytes) (node : FileNode) :
    look (name :: names) node = (node.entries.get? name).bind (look names) := by
  rw [look, get?]
  cases node.entries.get? name <;> rfl

/-- Names are followed one after the other. -/
theorem get?_append (names more : List Bytes) (node : FileNode) :
    node.get? (names ++ more) = (node.get? names).bind (get? more) := by
  induction names generalizing node with
  | nil => rfl
  | cons name names ih =>
    rw [List.cons_append, get?, get?]
    cases node.entries.get? name with
    | none => rfl
    | some child => exact ih child

theorem get?_entry (name : Bytes) (node : FileNode) :
    node.get? [name] = node.entries.get? name := by
  rw [get?]
  cases node.entries.get? name <;> rfl

/-- Replacing the content of a file changes what stands at its place, and at no other. -/
theorem look_put {names : List Bytes} {node : FileNode} {old : Bytes}
    (h : look names node = some (some old)) (new : Bytes) (other : List Bytes) :
    look other (put (file new) names node)
      = if other = names then some (some new) else look other node := by
  induction names generalizing node other with
  | nil =>
    cases node with
    | directory entries => simp [content?] at h
    | file content =>
      cases other with
      | nil => rfl
      | cons name others => rfl
  | cons name names ih =>
    rw [look_cons, Option.bind_eq_some_iff] at h
    obtain ⟨child, hchild, hlook⟩ := h
    have hput : put (file new) (name :: names) node
        = directory (node.entries.put name (put (file new) names child)) := by
      rw [put, hchild, Option.getD_some]
    rw [hput]
    cases other with
    | nil =>
      cases node with
      | directory entries => rfl
      | file content => cases hchild
    | cons name' others =>
      rw [look_cons, look_cons, entries, Entries.get?_put]
      by_cases hname : name = name'
      · subst hname
        simp [ih hlook, hchild]
      · simp [hname, Ne.symm hname]

end FileNode

namespace Workspace

variable {w w' w'' : Workspace} {P Q : List Bytes → Prop}

/-- What stands at a place. -/
def look (w : Workspace) (names : List Bytes) : Option (Option Bytes) :=
  w.root.node.look names

/-! ### Paths see no contents -/

/-- A step sees what stands at its place and whether there is an entry of the name. -/
theorem step_eq (root : FileNode) (place : List Bytes) (name : Bytes) :
    step root place name
      = match root.look place with
        | none => .error .notFound
        | some (some _) => .error .notDirectory
        | some none =>
          if name.isEmpty || name == Path.here then .ok place
          else if name == Path.above then .ok place.dropLast
          else if name.length > maxNameLength then .error .tooLong
          else if (root.look (place ++ [name])).isSome then .ok (place ++ [name])
          else .error .notFound := by
  rw [step, FileNode.look, FileNode.look, FileNode.get?_append]
  cases root.get? place with
  | none => rfl
  | some node =>
    cases node with
    | file content => rfl
    | directory entries =>
      simp only [Option.map_some, FileNode.content?, Option.bind_some, FileNode.get?_entry,
        FileNode.entries, Option.isSome_map]

/-- The content of a file, by what stands at the place that its path leads to. -/
theorem read_eq (w : Workspace) (path : Bytes) :
    w.read path
      = match w.locate path with
        | .error cause => .error ⟨.openFile, path, cause⟩
        | .ok names =>
          match w.look names with
          | none => .error ⟨.openFile, path, .notFound⟩
          | some none => .error ⟨.read, path, .isDirectory⟩
          | some (some content) => .ok content := by
  rw [read, node]
  cases w.locate path with
  | error cause => rfl
  | ok names =>
    simp only [Except.bind, look, FileNode.look]
    cases w.root.node.get? names with
    | none => rfl
    | some node => cases node <;> rfl

/-- A path that can be read leads to a file with that content. -/
theorem exists_of_read {path content : Bytes} (h : w.read path = .ok content) :
    ∃ names, w.locate path = .ok names ∧ w.look names = some (some content) := by
  rw [read_eq] at h
  split at h
  case h_1 => cases h
  case h_2 names hnames =>
    refine ⟨names, hnames, ?_⟩
    split at h
    case h_1 => cases h
    case h_2 => cases h
    case h_3 hlook =>
      obtain rfl := Except.ok.inj h
      exact hlook

/-! ### Changes at certain places -/

/-- Outside of the places `P` everything stands as it did, and at these places files are still
files. -/
structure AgreesOutside (P : List Bytes → Prop) (w w' : Workspace) : Prop where
  directory : w'.directory = w.directory
  /-- Files are files, directories are directories, and nothing appears or vanishes. -/
  shape : ∀ names, (w'.look names).map Option.isSome = (w.look names).map Option.isSome
  look : ∀ names, ¬ P names → w'.look names = w.look names

namespace AgreesOutside

theorem refl (w : Workspace) : AgreesOutside P w w :=
  ⟨rfl, fun _ ↦ rfl, fun _ _ ↦ rfl⟩

theorem mono (h : AgreesOutside P w w') (hPQ : ∀ names, P names → Q names) :
    AgreesOutside Q w w' :=
  ⟨h.directory, h.shape, fun names hnames ↦ h.look names (mt (hPQ names) hnames)⟩

theorem trans (h : AgreesOutside P w w') (h' : AgreesOutside P w' w'') :
    AgreesOutside P w w'' :=
  ⟨h'.directory.trans h.directory, fun names ↦ (h'.shape names).trans (h.shape names),
    fun names hnames ↦ (h'.look names hnames).trans (h.look names hnames)⟩

/-- Steps between directories do not see what files hold. -/
theorem step (h : AgreesOutside P w w') :
    Workspace.step w'.root.node = Workspace.step w.root.node := by
  funext place name
  have hplace : (w'.root.node.look place).map Option.isSome
      = (w.root.node.look place).map Option.isSome :=
    h.shape place
  have hentry : (w'.root.node.look (place ++ [name])).isSome
      = (w.root.node.look (place ++ [name])).isSome := by
    have := congrArg Option.isSome (h.shape (place ++ [name]))
    rwa [Option.isSome_map, Option.isSome_map] at this
  rw [step_eq, step_eq, hentry]
  revert hplace
  rcases w'.root.node.look place with _ | _ | _ <;> rcases w.root.node.look place with _ | _ | _ <;>
    simp

/-- Paths lead where they led. -/
theorem locate (h : AgreesOutside P w w') (path : Bytes) : w'.locate path = w.locate path := by
  rw [Workspace.locate, Workspace.locate, h.step, h.directory]

/-- A path that leads to none of the places has the content it had. -/
theorem read (h : AgreesOutside P w w') {path : Bytes}
    (hpath : ∀ names, w.locate path = .ok names → ¬ P names) : w'.read path = w.read path := by
  rw [read_eq, read_eq, h.locate]
  cases hnames : w.locate path with
  | error cause => rfl
  | ok names => simp only [h.look names (hpath names hnames)]

end AgreesOutside

/-! ### Writing -/

/-- Writing a file changes the place that its path leads to. -/
theorem agreesOutside_write {path old : Bytes} (h : w.read path = .ok old) (new : Bytes) :
    AgreesOutside (fun names ↦ w.locate path = .ok names) w (w.write path new) := by
  obtain ⟨place, hplace, hlook⟩ := exists_of_read h
  have hwrite : ∀ names, (w.write path new).look names
      = if names = place then some (some new) else w.look names := by
    intro names
    rw [write, hplace]
    exact FileNode.look_put hlook new names
  refine ⟨?_, fun names ↦ ?_, fun names hnames ↦ ?_⟩
  · rw [write, hplace]
  · rw [hwrite]
    split
    case isTrue heq => rw [heq, hlook]; rfl
    case isFalse => rfl
  · rw [hwrite, if_neg]
    rintro rfl
    exact hnames hplace

/-- What has been written is what is read. -/
theorem read_write {path old : Bytes} (h : w.read path = .ok old) (new : Bytes) :
    (w.write path new).read path = .ok new := by
  obtain ⟨place, hplace, hlook⟩ := exists_of_read h
  rw [read_eq, (agreesOutside_write h new).locate, hplace]
  have hnew : (w.write path new).look place = some (some new) := by
    rw [write, hplace]
    exact (FileNode.look_put hlook new place).trans (if_pos rfl)
  simp only [hnew]

/-! ### Writing what the file system takes -/

variable {faults : WriteFaults} {path content old : Bytes}

/-- What a path holds after a text was written to it, if the file system took any of it. -/
def stored? (faults : WriteFaults) (path content : Bytes) : Option Bytes :=
  match faults path content with
  | none => some content
  | some fault => fault.written? content

/-- Storing writes as much as the file system takes. -/
theorem store_eq (w : Workspace) (faults : WriteFaults) (path content : Bytes) :
    w.store faults path content
      = ((stored? faults path content).elim w (w.write path), faults path content) := by
  rw [store, stored?]
  cases faults path content <;> rfl

theorem store_of_takes (h : faults path content = none) :
    w.store faults path content = (w.write path content, none) := by
  rw [store, h]

/-- Storing changes the place that the path leads to, whether it succeeds or not. -/
theorem agreesOutside_store (h : w.read path = .ok old) (faults : WriteFaults) (content : Bytes) :
    AgreesOutside (fun names ↦ w.locate path = .ok names) w (w.store faults path content).1 := by
  rw [store_eq]
  cases stored? faults path content with
  | none => exact .refl w
  | some text => exact agreesOutside_write h text

/-- A file holds what was stored, or what it held if it could not be opened. -/
theorem read_store (h : w.read path = .ok old) (faults : WriteFaults) (content : Bytes) :
    (w.store faults path content).1.read path
      = .ok ((stored? faults path content).getD old) := by
  rw [store_eq]
  cases stored? faults path content with
  | none => exact h
  | some text => exact read_write h text

end Workspace

end ColonGap
