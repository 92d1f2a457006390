import ColonGap.KeyedList

/-!
# File trees

The contents of a file system as a value: a file is its content, and a directory is the list of
its entries in the order of their names.

What can be done with a tree is defined for nodes (`FileNode`), the entries of which may be in any
order. A `FileTree` is a node together with the proof that the entries of each directory in it are
in order, and what makes a tree from trees keeps this.
-/

namespace ColonGap

/-- A file, or a directory with its entries. -/
inductive FileNode where
  | file (content : Bytes)
  | directory (entries : List (Bytes × FileNode))
deriving Inhabited

namespace FileNode

/-- The directory without entries. -/
def empty : FileNode := directory []

/-- The entries of a directory; a file has none. -/
def entries : FileNode → Entries FileNode
  | file _ => []
  | directory entries => entries

/-- What the given names lead to. -/
def get? : (names : List Bytes) → FileNode → Option FileNode
  | [], node => some node
  | name :: names, node => (node.entries.get? name).bind (get? names)

/-- Put a node where the given names lead, along with the directories on the way. -/
def put (new : FileNode) : (names : List Bytes) → FileNode → FileNode
  | [], _ => new
  | name :: names, node =>
    directory (node.entries.put name (put new names ((node.entries.get? name).getD empty)))

/-- Remove the node that the given names lead to. -/
def erase : (names : List Bytes) → FileNode → FileNode
  | [], node => node
  | [name], node => directory (node.entries.remove name)
  | name :: names, node =>
    match node.entries.get? name with
    | none => node
    | some child => directory (node.entries.put name (erase names child))

mutual

/-- The files of a node with the names that lead to them, after the names `above`. -/
def filesBelow (above : List Bytes) : FileNode → List (List Bytes × Bytes)
  | file content => [(above, content)]
  | directory entries => filesIn above entries

/-- The files below the entries of the directory that the names `above` lead to. -/
def filesIn (above : List Bytes) : List (Bytes × FileNode) → List (List Bytes × Bytes)
  | [] => []
  | (name, node) :: entries => filesBelow (above ++ [name]) node ++ filesIn above entries

end

/-! ### Nodes in order -/

mutual

/-- The entries of each directory stand in the order of their names. -/
def InOrder : FileNode → Prop
  | file _ => True
  | directory entries => Entries.Ascending entries ∧ AllInOrder entries

/-- The nodes of some entries are in order. -/
def AllInOrder : List (Bytes × FileNode) → Prop
  | [] => True
  | (_, node) :: entries => node.InOrder ∧ AllInOrder entries

end

theorem allInOrder_iff {entries : List (Bytes × FileNode)} :
    AllInOrder entries ↔ ∀ entry ∈ entries, entry.2.InOrder := by
  induction entries with
  | nil => simp [AllInOrder]
  | cons entry entries ih =>
    obtain ⟨name, node⟩ := entry
    rw [AllInOrder, ih, List.forall_mem_cons]

theorem inOrder_file (content : Bytes) : (file content).InOrder :=
  trivial

theorem inOrder_directory_iff {entries : List (Bytes × FileNode)} :
    (directory entries).InOrder ↔
      Entries.Ascending entries ∧ ∀ entry ∈ entries, entry.2.InOrder := by
  rw [InOrder, allInOrder_iff]

theorem inOrder_empty : empty.InOrder :=
  inOrder_directory_iff.2 ⟨.nil, nofun⟩

variable {node new child : FileNode} {names : List Bytes} {name : Bytes}

/-- The entries of a node in order are so, and so are the nodes they hold. -/
theorem InOrder.entries (h : node.InOrder) :
    node.entries.Ascending ∧ ∀ entry ∈ node.entries, entry.2.InOrder := by
  cases node with
  | file => exact ⟨.nil, nofun⟩
  | directory => exact inOrder_directory_iff.1 h

theorem InOrder.entry (h : node.InOrder) (hchild : node.entries.get? name = some child) :
    child.InOrder := by
  obtain ⟨entry, hentry, rfl⟩ := Option.map_eq_some_iff.1 hchild
  exact h.entries.2 entry (List.mem_of_find?_eq_some hentry)

theorem InOrder.get? (h : node.InOrder) (hget : node.get? names = some child) :
    child.InOrder := by
  induction names generalizing node with
  | nil =>
    obtain rfl := Option.some.inj hget
    exact h
  | cons name names ih =>
    obtain ⟨inner, hinner, hget⟩ := Option.bind_eq_some_iff.1 hget
    exact ih (h.entry hinner) hget

/-- An entry that is set to a node in order leaves a directory in order. -/
theorem InOrder.putEntry (h : node.InOrder) (hchild : child.InOrder) (name : Bytes) :
    (directory (node.entries.put name child)).InOrder := by
  obtain ⟨hentries, hall⟩ := h.entries
  refine inOrder_directory_iff.2 ⟨hentries.put name child, fun entry hentry ↦ ?_⟩
  rcases Entries.mem_of_mem_put hentry with rfl | hentry
  · exact hchild
  · exact hall entry hentry

/-- Putting a node in order into another keeps that in order. -/
theorem InOrder.put (h : node.InOrder) (hnew : new.InOrder) (names : List Bytes) :
    (put new names node).InOrder := by
  induction names generalizing node with
  | nil => exact hnew
  | cons name names ih =>
    refine h.putEntry (ih ?_) name
    cases hchild : node.entries.get? name with
    | none => exact inOrder_empty
    | some child => exact h.entry hchild

/-- Removing a node keeps the others in order. -/
theorem InOrder.erase (h : node.InOrder) (names : List Bytes) : (erase names node).InOrder := by
  induction names generalizing node with
  | nil => exact h
  | cons name names ih =>
    cases names with
    | nil =>
      obtain ⟨hentries, hall⟩ := h.entries
      exact inOrder_directory_iff.2
        ⟨hentries.remove name, fun entry hentry ↦ hall entry (List.mem_filter.1 hentry).1⟩
    | cons next names =>
      rw [FileNode.erase]
      · split
        case h_1 => exact h
        case h_2 child hchild => exact h.putEntry (ih (h.entry hchild)) name
      · exact nofun

end FileNode

/-- A file or a directory, with the entries of each directory in the order of their names. -/
structure FileTree where
  node : FileNode
  inOrder : node.InOrder

namespace FileTree

/-- A file. -/
def file (content : Bytes) : FileTree := ⟨.file content, FileNode.inOrder_file content⟩

/-- The directory without entries. -/
def empty : FileTree := ⟨.empty, FileNode.inOrder_empty⟩

instance : Inhabited FileTree := ⟨empty⟩

/-- A directory of some trees. -/
def directory (entries : KeyedList FileTree) : FileTree where
  node := .directory (entries.entries.map fun (name, tree) ↦ (name, tree.node))
  inOrder := by
    refine FileNode.inOrder_directory_iff.2
      ⟨(Entries.ascending_map (·.node)).2 entries.ascending, fun entry hentry ↦ ?_⟩
    obtain ⟨⟨name, tree⟩, -, rfl⟩ := List.mem_map.1 hentry
    exact tree.inOrder

/-- What the given names lead to. -/
def get? (names : List Bytes) (tree : FileTree) : Option FileTree :=
  match h : tree.node.get? names with
  | none => none
  | some node => some ⟨node, tree.inOrder.get? h⟩

/-- Put a tree where the given names lead, along with the directories on the way. -/
def put (new : FileTree) (names : List Bytes) (tree : FileTree) : FileTree :=
  ⟨FileNode.put new.node names tree.node, tree.inOrder.put new.inOrder names⟩

/-- Remove what the given names lead to. -/
def erase (names : List Bytes) (tree : FileTree) : FileTree :=
  ⟨tree.node.erase names, tree.inOrder.erase names⟩

/-- The files of a tree, each with the names that lead to it. -/
def files (tree : FileTree) : List (List Bytes × Bytes) :=
  tree.node.filesBelow []

/-- The files that `later` has and that `earlier` lacks or holds with another content. -/
def changes (earlier later : FileTree) : List (List Bytes × Bytes) :=
  later.files.filter fun (names, content) ↦
    match earlier.node.get? names with
    | some (.file old) => old != content
    | _ => true

end FileTree

end ColonGap
