import ColonGap.Proofs.Effects

/-!
# Excluded directories are not entered

A walk through a directory passes by every entry that is excluded, with all that is below it. What
it finds are the files on the way to which nothing is excluded (`files_walkEntries`), and this holds
for every list of patterns.

Whether a file is excluded can also be asked for each file by itself. The two agree if no pattern
takes paths back (`expand_directory`): a pattern that matches a directory matches everything below
it, so an excluded path stays excluded on the way down (`excludes_append`). With a pattern that does
take paths back they differ, because a file that is taken back out of an excluded directory is not
found.
-/

namespace ColonGap

/-! ### Exclusion is inherited -/

namespace Exclude

/-- An entry that takes paths back. What counts is the entry after trimming and cleaning, so `./!a`
is such an entry and `!a/../b` is none. -/
def IsNegation (text : Bytes) : Prop :=
  (Path.clean text.trim).head? = some 33

/-- A pattern takes paths back exactly if its text starts with an exclamation mark. -/
theorem negated_ofText {text : Bytes} {p : Pattern} (h : Pattern.ofText text = .ok p) :
    p.negated = ((Path.clean text).head? == some 33) := by
  unfold Pattern.ofText at h
  dsimp only at h
  generalize (if (Path.clean text).head? == some 33 then (Path.clean text).drop 1
    else Path.clean text) = body at h
  split at h
  · cases h
  · split at h
    · cases h
    · obtain rfl := Except.ok.inj h
      rfl

/-- Patterns of entries that take nothing back take nothing back. -/
theorem not_negated_of_patterns {texts : List Bytes} {ps : List Pattern}
    (h : patterns texts = .ok ps) (htexts : ∀ text ∈ texts, ¬ IsNegation text) :
    ∀ p ∈ ps, p.negated = false := by
  induction texts generalizing ps with
  | nil =>
    obtain rfl := Except.ok.inj h
    simp
  | cons text texts ih =>
    obtain ⟨htext, htexts⟩ := List.forall_mem_cons.1 htexts
    rw [patterns] at h
    split at h
    case isTrue => exact ih h htexts
    case isFalse =>
      split at h
      case h_1 => cases h
      case h_2 p hp =>
        cases hrest : patterns texts with
        | error e =>
          rw [hrest] at h
          cases h
        | ok rest =>
          rw [hrest] at h
          obtain rfl := Except.ok.inj h
          refine List.forall_mem_cons.2 ⟨?_, ih hrest htexts⟩
          rw [negated_ofText hp, beq_eq_false_iff_ne]
          exact htext

/-- The places on the way along two lists of names: those along the first, then those along both. -/
theorem placesFrom_append (above names more : List Bytes) :
    placesFrom above (names ++ more)
      = placesFrom above names ++ placesFrom (above ++ names) more := by
  induction names generalizing above with
  | nil => simp [placesFrom]
  | cons name names ih => simp [placesFrom, ih]

/-- A pattern can be tried on all paths or on none. -/
theorem Pattern.exists_accepts {p : Pattern} {names : List Bytes} {accepted : Bool}
    (h : p.accepts names = .ok accepted) (other : List Bytes) :
    ∃ accepted', p.accepts other = .ok accepted' := by
  unfold accepts at h ⊢
  split at h
  case h_1 => cases h
  case h_2 => exact ⟨_, rfl⟩

/-- A pattern that matches a path matches what is below it. -/
theorem Pattern.accepts_append {p : Pattern} {names : List Bytes} (h : p.accepts names = .ok true)
    (more : List Bytes) : p.accepts (names ++ more) = .ok true := by
  unfold accepts at h ⊢
  split at h
  case h_1 => cases h
  case h_2 m hm =>
    have hany := Except.ok.inj h
    rw [lineage, placesFrom_append, List.map_append, List.any_append, ← lineage, hany, Bool.true_or]

variable {p : Pattern} {ps : List Pattern} {names : List Bytes}

/-- A pattern that takes nothing back decides about a path that is not excluded yet. -/
theorem excludedFrom_cons (hp : p.negated = false) :
    excludedFrom names false (p :: ps)
      = (p.accepts names).bind fun accepted ↦ excludedFrom names accepted ps := by
  rw [excludedFrom, hp, if_neg (by decide)]
  cases p.accepts names with
  | error e => rfl
  | ok accepted => cases accepted <;> rfl

/-- Patterns that all mean something can be tried on every path. -/
theorem exists_excludes (hps : ∀ p ∈ ps, p.matcher.isSome = true) (names : List Bytes) :
    ∃ excluded, excludes ps names = .ok excluded := by
  suffices h : ∀ before, ∃ excluded, excludedFrom names before ps = .ok excluded from h false
  induction ps with
  | nil => exact fun before ↦ ⟨before, rfl⟩
  | cons p ps ih =>
    obtain ⟨hp, hps⟩ := List.forall_mem_cons.1 hps
    obtain ⟨m, hm⟩ := Option.isSome_iff_exists.1 hp
    intro before
    rw [excludedFrom]
    split
    · exact ih hps before
    · rw [Pattern.accepts, hm]
      exact ih hps _

/-- Without a pattern that takes it back, an excluded path stays excluded. -/
theorem excludedFrom_true (hps : ∀ p ∈ ps, p.negated = false) :
    excludedFrom names true ps = .ok true := by
  induction ps with
  | nil => rfl
  | cons p ps ih =>
    obtain ⟨hp, hps⟩ := List.forall_mem_cons.1 hps
    rw [excludedFrom, hp]
    exact ih hps

/-- **Exclusion is inherited** where no pattern takes paths back. -/
theorem excludes_append (hps : ∀ p ∈ ps, p.negated = false) (h : excludes ps names = .ok true)
    (more : List Bytes) : excludes ps (names ++ more) = .ok true := by
  unfold excludes at h ⊢
  induction ps with
  | nil => cases h
  | cons p ps ih =>
    obtain ⟨hp, hps⟩ := List.forall_mem_cons.1 hps
    rw [excludedFrom_cons hp] at h ⊢
    cases haccepts : p.accepts names with
    | error e =>
      rw [haccepts] at h
      cases h
    | ok accepted =>
      rw [haccepts] at h
      cases accepted with
      | true =>
        rw [Pattern.accepts_append haccepts more]
        exact excludedFrom_true hps
      | false =>
        -- A pattern that does not match the path may match what is below it.
        obtain ⟨below, hbelow⟩ := Pattern.exists_accepts haccepts (names ++ more)
        rw [hbelow]
        cases below with
        | true => exact excludedFrom_true hps
        | false => exact ih hps h

/-- Nothing on the way along some names is excluded. -/
def clears (patterns : List Pattern) (names : List Bytes) : Bool :=
  (placesFrom [] names).all fun place ↦ excludes patterns place = .ok false

theorem clears_append (patterns : List Pattern) (names : List Bytes) (name : Bytes) :
    clears patterns (names ++ [name])
      = (clears patterns names && decide (excludes patterns (names ++ [name]) = .ok false)) := by
  simp [clears, placesFrom_append, placesFrom]

/-- The places on the way are those with some of the names in front. -/
theorem mem_placesFrom {above place : List Bytes} :
    place ∈ placesFrom above names ↔ ∃ way, way ≠ [] ∧ way <+: names ∧ place = above ++ way := by
  induction names generalizing above with
  | nil => simp [placesFrom]
  | cons name names ih =>
    rw [placesFrom, List.mem_cons, ih]
    constructor
    · rintro (rfl | ⟨way, -, hway, rfl⟩)
      · exact ⟨[name], by simp, by simp, rfl⟩
      · exact ⟨name :: way, by simp, List.cons_prefix_cons.2 ⟨rfl, hway⟩, by simp⟩
    · rintro ⟨way, hne, hway, rfl⟩
      cases way with
      | nil => exact absurd rfl hne
      | cons first way =>
        obtain ⟨rfl, hrest⟩ := List.cons_prefix_cons.1 hway
        by_cases hnil : way = []
        · exact .inl (by rw [hnil])
        · exact .inr ⟨way, hnil, hrest, by simp⟩

/-- A path is clear exactly if no place on the way to it is excluded. -/
theorem clears_eq_true_iff :
    clears ps names = true ↔
      ∀ place, place ≠ [] → place <+: names → excludes ps place = .ok false := by
  simp only [clears, List.all_eq_true, decide_eq_true_eq, mem_placesFrom, List.nil_append]
  constructor
  · exact fun h place hne hplace ↦ h place ⟨place, hne, hplace, rfl⟩
  · rintro h place ⟨_, hne, hplace, rfl⟩
    exact h place hne hplace

/-- Where no pattern takes paths back, the way to a path that is not excluded is clear. -/
theorem clears_iff (hps : ∀ p ∈ ps, p.negated = false) (hne : names ≠ [])
    (hdecided : ∀ place, place ≠ [] → place <+: names →
      ∃ excluded, excludes ps place = .ok excluded) :
    clears ps names = true ↔ excludes ps names = .ok false := by
  rw [clears_eq_true_iff]
  constructor
  · exact fun h ↦ h names hne (List.prefix_refl _)
  · intro h place hplace hprefix
    obtain ⟨excluded, hexcluded⟩ := hdecided place hplace hprefix
    cases excluded with
    | false => exact hexcluded
    | true =>
      obtain ⟨more, rfl⟩ := hprefix
      rw [excludes_append hps hexcluded] at h
      cases h

/-- A file that is taken back is not excluded, but the directory above it is. -/
example : (patterns [utf8 "a", utf8 "./!a/b.js"]).toOption.map (fun ps ↦
    (decide (excludes ps [utf8 "a", utf8 "b.js"] = .ok false), clears ps [utf8 "a", utf8 "b.js"]))
      = some (true, false) := by
  decide +kernel

end Exclude

/-! ### What is in a tree -/

/-- The path of what some names lead to from a directory. -/
def Path.descend (directory : Bytes) (names : List Bytes) : Bytes :=
  names.foldl Path.child directory

theorem Path.descend_append (directory : Bytes) (names : List Bytes) (name : Bytes) :
    descend directory (names ++ [name]) = child (descend directory names) name := by
  simp [descend]

namespace FileNode

/-- The names lead from a node to one in it, from entry to entry. -/
inductive Holds : FileNode → List Bytes → FileNode → Prop
  | here (node : FileNode) : Holds node [] node
  | entry {entries : List (Bytes × FileNode)} {name : Bytes} {child node : FileNode}
      {names : List Bytes} (hentry : (name, child) ∈ entries) (hnode : Holds child names node) :
      Holds (directory entries) (name :: names) node

/-- Whatever is in a tree has something at every place on the way. -/
theorem Holds.exists_of_prefix {tree node : FileNode} {names place : List Bytes}
    (h : Holds tree names node) (hplace : place <+: names) : ∃ node, Holds tree place node := by
  induction h generalizing place with
  | here tree =>
    obtain rfl := List.prefix_nil.1 hplace
    exact ⟨tree, .here tree⟩
  | @entry entries name child node names hentry _ ih =>
    cases place with
    | nil => exact ⟨_, .here _⟩
    | cons first place =>
      obtain ⟨rfl, hrest⟩ := List.cons_prefix_cons.1 hplace
      obtain ⟨node, hnode⟩ := ih hrest
      exact ⟨node, .entry hentry hnode⟩

mutual

/-- The files below a node are those that it holds. -/
theorem mem_filesBelow {place : List Bytes} {content : Bytes} (above : List Bytes) :
    (tree : FileNode) → ((place, content) ∈ filesBelow above tree ↔
      ∃ names, place = above ++ names ∧ Holds tree names (file content))
  | file old => by
    rw [filesBelow, List.mem_singleton, Prod.mk.injEq]
    constructor
    · rintro ⟨rfl, rfl⟩
      exact ⟨[], by simp, .here _⟩
    · rintro ⟨names, rfl, h⟩
      cases h
      simp
  | directory entries => by
    rw [filesBelow, mem_filesIn above entries]
    constructor
    · rintro ⟨name, child, names, hentry, rfl, h⟩
      exact ⟨name :: names, rfl, .entry hentry h⟩
    · rintro ⟨names, rfl, h⟩
      cases h with
      | entry hentry h => exact ⟨_, _, _, hentry, rfl, h⟩

/-- The files below entries are those that the nodes of the entries hold. -/
theorem mem_filesIn {place : List Bytes} {content : Bytes} (above : List Bytes) :
    (entries : List (Bytes × FileNode)) → ((place, content) ∈ filesIn above entries ↔
      ∃ name child names, (name, child) ∈ entries ∧ place = above ++ name :: names ∧
        Holds child names (file content))
  | [] => by simp [filesIn]
  | (name, node) :: entries => by
    rw [filesIn, List.mem_append, mem_filesBelow (above ++ [name]) node, mem_filesIn above entries]
    constructor
    · rintro (⟨names, rfl, h⟩ | ⟨name', child, names, hentry, rfl, h⟩)
      · exact ⟨name, node, names, List.mem_cons_self, by simp, h⟩
      · exact ⟨name', child, names, List.mem_cons_of_mem _ hentry, rfl, h⟩
    · rintro ⟨name', child, names, hentry, rfl, h⟩
      rcases List.mem_cons.1 hentry with heq | hentry
      · obtain ⟨rfl, rfl⟩ := Prod.mk.inj heq
        exact .inl ⟨names, by simp, h⟩
      · exact .inr ⟨name', child, names, hentry, rfl, h⟩

end

/-- The files in entries are those that their directory holds. -/
theorem mem_filesIn_nil {names : List Bytes} {content : Bytes}
    {entries : List (Bytes × FileNode)} :
    (names, content) ∈ filesIn [] entries ↔ (directory entries).Holds names (file content) := by
  have hbelow := @mem_filesBelow names content [] (directory entries)
  rw [filesBelow] at hbelow
  simpa using hbelow

end FileNode

/-! ### What a walk finds -/

namespace Target

variable {filter : Filter} {root : Bytes}

/-- Whether a file is taken from a directory: nothing on the way to it is excluded, and it has one
of the extensions. -/
def Filter.takes (filter : Filter) (root : Bytes) (file : List Bytes × Bytes) : Bool :=
  Exclude.clears filter.patterns file.1 &&
    filter.extensions.contains (Path.extension (Path.descend root file.1))

/-- The paths of the files among those given that are taken. -/
def Filter.paths (filter : Filter) (root : Bytes) (files : List (List Bytes × Bytes)) :
    List Bytes :=
  (files.filter (filter.takes root)).map fun file ↦ Path.descend root file.1

/-- Two walks without an error find what either of them finds. -/
theorem Walk.andThen_of_error {first second : Walk} (h : (first.andThen second).error = none) :
    first.error = none ∧ second.error = none ∧
      (first.andThen second).files = first.files ++ second.files := by
  unfold Walk.andThen at h ⊢
  split at h
  case h_1 e he => simp [he] at h
  case h_2 he => exact ⟨he, h, rfl⟩

/-- What a walk that comes to its end does at an entry: it passes by, or it goes on with what the
entry is. -/
theorem walkNode_of_error (path : Bytes) (names : List Bytes) (node : FileNode) :
    (walkNode filter path names node).error = none →
      (Exclude.excludes filter.patterns names = .ok true ∧
          (walkNode filter path names node).files = []) ∨
        (Exclude.excludes filter.patterns names = .ok false ∧
          walkNode filter path names node
            = match node with
              | .directory entries => walkEntries filter path names entries
              | .file _ =>
                if filter.extensions.contains (Path.extension path) then ⟨[path], [], none⟩
                else .nothing) := by
  intro h
  rw [walkNode.eq_def] at h ⊢
  split at h
  case h_1 => cases h
  case h_2 hexcludes => exact .inl ⟨hexcludes, rfl⟩
  case h_3 hexcludes => exact .inr ⟨hexcludes, rfl⟩

/-- Below an excluded place nothing is taken. -/
theorem paths_filesBelow_of_excluded {names : List Bytes} {node : FileNode}
    (hne : names ≠ []) (h : Exclude.excludes filter.patterns names = .ok true) :
    filter.paths root (FileNode.filesBelow names node) = [] := by
  rw [Filter.paths, List.map_eq_nil_iff, List.filter_eq_nil_iff]
  rintro ⟨place, content⟩ hmem htakes
  obtain ⟨more, rfl, -⟩ := (FileNode.mem_filesBelow names node).1 hmem
  rw [Filter.takes, Bool.and_eq_true, Exclude.clears_eq_true_iff] at htakes
  rw [htakes.1 names hne (List.prefix_append _ _)] at h
  cases h

mutual

/-- **What a walk finds** at an entry, if it comes to its end: the files there that are taken. -/
theorem files_walkNode {above : List Bytes} {name : Bytes}
    (habove : Exclude.clears filter.patterns above = true) (node : FileNode)
    (h : (walkNode filter (Path.descend root (above ++ [name])) (above ++ [name]) node).error
      = none) :
    (walkNode filter (Path.descend root (above ++ [name])) (above ++ [name]) node).files
      = filter.paths root (FileNode.filesBelow (above ++ [name]) node) := by
  obtain ⟨hexcludes, hfiles⟩ | ⟨hexcludes, hwalk⟩ := walkNode_of_error _ _ _ h
  · rw [hfiles, paths_filesBelow_of_excluded (by simp) hexcludes]
  · have hclears : Exclude.clears filter.patterns (above ++ [name]) = true := by
      rw [Exclude.clears_append, habove, hexcludes]
      rfl
    rw [hwalk] at h ⊢
    match node with
    | .directory entries => exact files_walkEntries hclears entries h
    | .file content =>
      simp only [FileNode.filesBelow, Filter.paths, Filter.takes, List.filter_cons, hclears,
        Bool.true_and, List.filter_nil]
      split <;> rfl

/-- What a walk through entries finds, if it ends well, is what is clear on all the way. -/
theorem files_walkEntries {names : List Bytes}
    (hnames : Exclude.clears filter.patterns names = true) :
    (entries : List (Bytes × FileNode)) →
    (walkEntries filter (Path.descend root names) names entries).error = none →
      (walkEntries filter (Path.descend root names) names entries).files
        = filter.paths root (FileNode.filesIn names entries)
  | [] => fun _ ↦ rfl
  | (name, node) :: entries => by
    intro h
    rw [walkEntries, ← Path.descend_append] at h ⊢
    obtain ⟨hfirst, hrest, hfiles⟩ := Walk.andThen_of_error h
    rw [hfiles, files_walkNode hnames node hfirst, files_walkEntries hnames entries hrest,
      FileNode.filesIn, Filter.paths, Filter.paths, Filter.paths, List.filter_append,
      List.map_append]

end

theorem Walk.error_andThen {first second : Walk} (h : first.error = none)
    (h' : second.error = none) : (first.andThen second).error = none := by
  rw [Walk.andThen, h]
  exact h'

mutual

/-- A walk comes to its end if at every place it can be told whether it is excluded. -/
theorem error_walkNode {path : Bytes} {names : List Bytes} (node : FileNode)
    (h : ∀ more other, node.Holds more other →
      ∃ excluded, Exclude.excludes filter.patterns (names ++ more) = .ok excluded) :
    (walkNode filter path names node).error = none := by
  obtain ⟨excluded, hexcluded⟩ := h [] node (.here node)
  rw [List.append_nil] at hexcluded
  rw [walkNode.eq_def, hexcluded]
  match excluded, node with
  | true, _ => rfl
  | false, .directory entries => exact error_walkEntries entries fun more other _ ↦ h more other
  | false, .file content =>
    dsimp only
    split <;> rfl

/-- A walk through entries ends well if of all that is in them it can be said whether it is
excluded. -/
theorem error_walkEntries {path : Bytes} {names : List Bytes} (entries : List (Bytes × FileNode))
    (h : ∀ more other, more ≠ [] → (FileNode.directory entries).Holds more other →
      ∃ excluded, Exclude.excludes filter.patterns (names ++ more) = .ok excluded) :
    (walkEntries filter path names entries).error = none := by
  match entries with
  | [] => rfl
  | (name, node) :: entries =>
    rw [walkEntries]
    refine Walk.error_andThen (error_walkNode node fun more other hmore ↦ ?_)
      (error_walkEntries entries fun more other hne hmore ↦ h more other hne ?_)
    · rw [List.append_assoc]
      exact h (name :: more) other (by simp) (.entry List.mem_cons_self hmore)
    · cases hmore with
      | here => exact absurd rfl hne
      | entry hentry hmore => exact .entry (List.mem_cons_of_mem _ hentry) hmore

end

/-! ### The targets of a directory -/

/-- Of targets with the same name one is kept. -/
theorem exists_mem_distinct {seen : List Bytes} {targets : List Target} {t : Target}
    (ht : t ∈ targets) (hnew : t.name ∉ seen) : ∃ s ∈ distinct seen targets, s.name = t.name := by
  induction targets generalizing seen with
  | nil => cases ht
  | cons s targets ih =>
    rw [distinct]
    split
    case isTrue hseen =>
      rcases List.mem_cons.1 ht with rfl | ht
      · exact absurd (List.contains_iff_mem.1 hseen) hnew
      · exact ih ht hnew
    case isFalse =>
      by_cases heq : s.name = t.name
      · exact ⟨s, List.mem_cons_self, heq⟩
      · have hne : t ≠ s := fun h ↦ heq (h ▸ rfl)
        have hnew' : t.name ∉ s.name :: seen := fun h ↦
          (List.mem_cons.1 h).elim (fun h ↦ heq h.symm) hnew
        obtain ⟨kept, hkept, hname⟩ := ih (List.mem_of_ne_of_mem hne ht) hnew'
        exact ⟨kept, List.mem_cons_of_mem _ hkept, hname⟩

/-- Files are told apart by their names, so only repetitions are left out. -/
theorem mem_distinct_files {files : List Bytes} {t : Target} :
    t ∈ distinct [] (files.map ofFile) ↔ t ∈ files.map ofFile := by
  refine ⟨fun h ↦ (mem_distinct h).1, fun h ↦ ?_⟩
  obtain ⟨s, hs, hname⟩ := exists_mem_distinct h List.not_mem_nil
  obtain ⟨path, -, rfl⟩ := List.mem_map.1 (mem_distinct hs).1
  obtain ⟨path', -, rfl⟩ := List.mem_map.1 h
  obtain rfl : path = path' := hname
  exact hs

/-- The paths of a directory are those of its files with one of the extensions that are clear. -/
theorem mem_paths {entries : List (Bytes × FileNode)} {path : Bytes} :
    path ∈ filter.paths root (FileNode.filesIn [] entries) ↔
      ∃ names content, (FileNode.directory entries).Holds names (.file content) ∧
        path = Path.descend root names ∧ Path.extension path ∈ filter.extensions ∧
        Exclude.clears filter.patterns names = true := by
  simp only [Filter.paths, Filter.takes, List.mem_map, List.mem_filter, Prod.exists,
    FileNode.mem_filesIn_nil, Bool.and_eq_true, List.contains_iff_mem]
  constructor
  · rintro ⟨names, content, ⟨hholds, hclears, hextension⟩, rfl⟩
    exact ⟨names, content, hholds, rfl, hextension, hclears⟩
  · rintro ⟨names, content, hholds, rfl, hextension, hclears⟩
    exact ⟨names, content, ⟨hholds, hclears, hextension⟩, rfl⟩

variable {w : Workspace} {c : Config} {path : Bytes} {entries : List (Bytes × FileNode)}
  {patterns : List Exclude.Pattern}

/-- With one argument, and patterns that can be read, the targets are those of this argument. -/
theorem expand_one (hpatterns : Exclude.patterns (c.exclude.getD []) = .ok patterns) :
    let expansion := expandPath w ⟨patterns, c.extensions.getD []⟩ path
    (expand w c [path]).targets = distinct [] expansion.targets ∧
      (expand w c [path]).failed = expansion.failed := by
  simp [expand, hpatterns, expandAll, Expansion.append, Expansion.nothing]

/-- The targets of a directory, for all patterns that can be tried on what is in it: the files on
the way to which nothing is excluded. -/
theorem mem_expand_directory (hpath : path ≠ stdinArgument)
    (hstat : w.stat path = .ok (.directory entries))
    (hpatterns : Exclude.patterns (c.exclude.getD []) = .ok patterns)
    (hdecided : ∀ names node, names ≠ [] → (FileNode.directory entries).Holds names node →
      ∃ excluded, Exclude.excludes patterns names = .ok excluded) :
    (expand w c [path]).failed = false ∧
      ∀ t, t ∈ (expand w c [path]).targets ↔
        ∃ names content, (FileNode.directory entries).Holds names (.file content) ∧
          t = ofFile (Path.descend (Path.clean path) names) ∧
          Path.extension t.name ∈ c.extensions.getD [] ∧
          Exclude.clears patterns names = true := by
  obtain ⟨htargets, hfailed⟩ := @expand_one w c path patterns hpatterns
  set filter : Filter := ⟨patterns, c.extensions.getD []⟩
  have herror : (walkEntries filter (Path.clean path) [] entries).error = none :=
    error_walkEntries entries hdecided
  have hfiles : (walkEntries filter (Path.clean path) [] entries).files
      = filter.paths (Path.clean path) (FileNode.filesIn [] entries) :=
    @files_walkEntries filter (Path.clean path) [] rfl entries herror
  have hexpand : expandPath w filter path
      = ⟨(filter.paths (Path.clean path) (FileNode.filesIn [] entries)).map ofFile,
        (walkEntries filter (Path.clean path) [] entries).log, false⟩ := by
    simp [expandPath, hpath, hstat, herror, hfiles]
  rw [hexpand] at htargets hfailed
  refine ⟨hfailed, fun t ↦ ?_⟩
  rw [htargets, mem_distinct_files, List.mem_map]
  constructor
  · rintro ⟨file, hfile, rfl⟩
    obtain ⟨names, content, hholds, rfl, hextension, hclears⟩ := mem_paths.1 hfile
    exact ⟨names, content, hholds, rfl, hextension, hclears⟩
  · rintro ⟨names, content, hholds, rfl, hextension, hclears⟩
    exact ⟨_, mem_paths.2 ⟨names, content, hholds, rfl, hextension, hclears⟩, rfl⟩

/-- **Passing by excluded directories loses nothing.** For exclude patterns of which none takes
paths back and that can be tried on what is in a directory, the targets of the directory are the
files at any depth in it that have one of the extensions and whose path in the directory is not
excluded. -/
theorem expand_directory (hpath : path ≠ stdinArgument)
    (hstat : w.stat path = .ok (.directory entries))
    (hexclude : ∀ text ∈ c.exclude.getD [], ¬ Exclude.IsNegation text)
    (hpatterns : Exclude.patterns (c.exclude.getD []) = .ok patterns)
    (hdecided : ∀ names node, names ≠ [] → (FileNode.directory entries).Holds names node →
      ∃ excluded, Exclude.excludes patterns names = .ok excluded) :
    (expand w c [path]).failed = false ∧
      ∀ t, t ∈ (expand w c [path]).targets ↔
        ∃ names content, (FileNode.directory entries).Holds names (.file content) ∧
          t = ofFile (Path.descend (Path.clean path) names) ∧
          Path.extension t.name ∈ c.extensions.getD [] ∧
          Exclude.excludes patterns names = .ok false := by
  obtain ⟨hfailed, htargets⟩ := mem_expand_directory hpath hstat hpatterns hdecided
  refine ⟨hfailed, fun t ↦ (htargets t).trans ?_⟩
  refine exists_congr fun names ↦ exists_congr fun content ↦ and_congr_right fun hholds ↦ ?_
  have hclears : Exclude.clears patterns names = true ↔
      Exclude.excludes patterns names = .ok false := by
    refine Exclude.clears_iff (Exclude.not_negated_of_patterns hpatterns hexclude)
      (by rintro rfl; cases hholds) fun place hne hplace ↦ ?_
    obtain ⟨node, hnode⟩ := hholds.exists_of_prefix hplace
    exact hdecided place node hne hnode
  rw [hclears]

/-- One directory is excluded by its name, and files at any depth by a pattern with wildcards. -/
theorem expand_directory_generated :
    let w : Workspace :=
      ⟨.directory (.ofList [(utf8 "p", .directory (.ofList
        [(utf8 "gen", .directory (.ofList [(utf8 "a.js", .file [])])),
          (utf8 "lib", .directory (.ofList [(utf8 "x.min.js", .file []), (utf8 "y.js", .file [])])),
          (utf8 "main.js", .file []), (utf8 "notes.txt", .file [])]))]), []⟩
    let c : Config := { Config.standard with exclude := some [utf8 "gen", utf8 "**/*.min.js"] }
    ∃ entries patterns, utf8 "p/" ≠ stdinArgument ∧
      w.stat (utf8 "p/") = .ok (.directory entries) ∧
      (∀ text ∈ c.exclude.getD [], ¬ Exclude.IsNegation text) ∧
      Exclude.patterns (c.exclude.getD []) = .ok patterns ∧
      (∀ names node, names ≠ [] → (FileNode.directory entries).Holds names node →
        ∃ excluded, Exclude.excludes patterns names = .ok excluded) ∧
      (expand w c [utf8 "p/"]).targets
        = [ofFile (utf8 "p/lib/y.js"), ofFile (utf8 "p/main.js")] ∧
      (expand w c [utf8 "p/"]).failed = false ∧
      ∀ t, t ∈ (expand w c [utf8 "p/"]).targets ↔
        ∃ names content, (FileNode.directory entries).Holds names (.file content) ∧
          t = ofFile (Path.descend (Path.clean (utf8 "p/")) names) ∧
          Path.extension t.name ∈ c.extensions.getD [] ∧
          Exclude.excludes patterns names = .ok false := by
  intro w c
  have hpath : utf8 "p/" ≠ stdinArgument := by decide
  have hstat : ∃ entries, w.stat (utf8 "p/") = .ok (.directory entries) := ⟨_, rfl⟩
  obtain ⟨entries, hstat⟩ := hstat
  have hexclude : ∀ text ∈ c.exclude.getD [], ¬ Exclude.IsNegation text := by
    unfold Exclude.IsNegation
    decide
  have hmatchers : (Exclude.patterns (c.exclude.getD [])).toOption.map
      (·.all fun p ↦ p.matcher.isSome) = some true := by decide +kernel
  have htargets : (expand w c [utf8 "p/"]).targets
      = [ofFile (utf8 "p/lib/y.js"), ofFile (utf8 "p/main.js")] := by decide +kernel
  cases hpatterns : Exclude.patterns (c.exclude.getD []) with
  | error e => simp [hpatterns, Except.toOption] at hmatchers
  | ok patterns =>
    have hall : ∀ p ∈ patterns, p.matcher.isSome = true := by
      simpa [hpatterns, Except.toOption] using hmatchers
    have hdecided : ∀ names node, names ≠ [] → (FileNode.directory entries).Holds names node →
        ∃ excluded, Exclude.excludes patterns names = .ok excluded := fun names _ _ _ ↦
      Exclude.exists_excludes hall names
    exact ⟨entries, patterns, hpath, hstat, hexclude, rfl, hdecided, htargets,
      expand_directory hpath hstat hexclude hpatterns hdecided⟩

end Target

end ColonGap
