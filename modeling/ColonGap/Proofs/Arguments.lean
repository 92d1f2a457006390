import ColonGap.Proofs.Pruning

/-!
# Arguments and their targets

The targets of a run are what its arguments contribute, one argument after the other, with all but
the first of the same name left out (`expand_orders`). What one argument contributes is said without
the walk (`Contributes`): a directory contributes its files in the order of their names, compared
from the directory downwards, which is the order of a walk that goes into each directory when it
comes to its name (`IsListing`). The list is determined by its members and this order.

A walk ends at the first place of which the patterns cannot say whether it is excluded. What it
found so far is a beginning of the list (`prefix_files_walkEntries`), and the targets found keep
their place among those of the other arguments.

## Names

Targets are told apart by their names alone, and standard input goes by a name that a file can have
too. Among arguments that are files or standard input this is the only way to lose one
(`mem_expand_files`, `expand_files_stdinName`).
-/

namespace ColonGap

/-! ### Trees in order -/

namespace FileNode

mutual

/-- **The files of a tree are listed in the order of their names**, compared from the top. -/
theorem pairwise_filesBelow (above : List Bytes) :
    (node : FileNode) → node.InOrder → ((filesBelow above node).map (·.1)).Pairwise (· < ·)
  | file _, _ => List.pairwise_singleton _ _
  | directory entries, h => by
    obtain ⟨hnames, hentries⟩ := inOrder_directory_iff.1 h
    exact pairwise_filesIn above entries hnames hentries

/-- Below a directory in order the files of its entries come in the order of their paths. -/
theorem pairwise_filesIn (above : List Bytes) :
    (entries : List (Bytes × FileNode)) → (entries.map (·.1)).Pairwise (· < ·) →
      (∀ entry ∈ entries, entry.2.InOrder) → ((filesIn above entries).map (·.1)).Pairwise (· < ·)
  | [], _, _ => .nil
  | (name, node) :: entries, hnames, hentries => by
    obtain ⟨hname, hnames⟩ := List.pairwise_cons.1 hnames
    obtain ⟨hnode, hentries⟩ := List.forall_mem_cons.1 hentries
    rw [filesIn, List.map_append, List.pairwise_append]
    refine ⟨pairwise_filesBelow _ node hnode, pairwise_filesIn above entries hnames hentries, ?_⟩
    -- Files below different entries are told apart by the names of these.
    rintro _ hfirst _ hsecond
    obtain ⟨⟨place, content⟩, hplace, rfl⟩ := List.mem_map.1 hfirst
    obtain ⟨⟨place', content'⟩, hplace', rfl⟩ := List.mem_map.1 hsecond
    obtain ⟨names, rfl, -⟩ := (mem_filesBelow _ node).1 hplace
    obtain ⟨name', child, names', hentry, rfl, -⟩ := (mem_filesIn above entries).1 hplace'
    have hlt : name < name' := hname _ (List.mem_map_of_mem hentry)
    show above ++ [name] ++ names < above ++ name' :: names'
    rw [List.append_assoc]
    exact List.append_left_lt (List.cons_lt_cons_iff.2 (.inl hlt))

end

end FileNode

namespace Target

variable {w : Workspace} {c : Config} {filter : Filter} {root path : Bytes} {paths : List Bytes}
  {entries : List (Bytes × FileNode)} {t : Target} {targets : List Target}

/-! ### Listing a directory -/

/-- The files of a directory that a filter takes, in the order of their names. -/
structure IsListing (filter : Filter) (root : Bytes) (entries : List (Bytes × FileNode))
    (files : List (List Bytes)) : Prop where
  ascending : files.Pairwise (· < ·)
  mem_iff : ∀ names, names ∈ files ↔
    (∃ content, (FileNode.directory entries).Holds names (.file content)) ∧
      Path.extension (Path.descend root names) ∈ filter.extensions ∧
      Exclude.clears filter.patterns names = true

/-- The files below a directory that a filter takes are its listing. -/
theorem isListing_filesIn (filter : Filter) (root : Bytes)
    (h : (FileNode.directory entries).InOrder) :
    IsListing filter root entries
      (((FileNode.filesIn [] entries).filter (filter.takes root)).map (·.1)) where
  ascending := by
    have hall := FileNode.pairwise_filesBelow [] _ h
    rw [FileNode.filesBelow, List.pairwise_map] at hall
    rw [List.pairwise_map]
    exact hall.filter _
  mem_iff names := by
    simp only [List.mem_map, List.mem_filter, Filter.takes, Prod.exists,
      FileNode.mem_filesIn_nil, Bool.and_eq_true, List.contains_iff_mem]
    constructor
    · rintro ⟨_, content, ⟨hholds, hclears, hextension⟩, rfl⟩
      exact ⟨⟨content, hholds⟩, hextension, hclears⟩
    · rintro ⟨⟨content, hholds⟩, hextension, hclears⟩
      exact ⟨names, content, ⟨hholds, hclears, hextension⟩, rfl⟩

/-- A walk that has ended with an error does not go on. -/
theorem Walk.andThen_of_isSome {first : Walk} (h : first.error ≠ none) (second : Walk) :
    first.andThen second = first := by
  unfold Walk.andThen
  split
  · rfl
  case h_2 hnone => exact absurd hnone h

theorem paths_append (files more : List (List Bytes × Bytes)) :
    filter.paths root (files ++ more) = filter.paths root files ++ filter.paths root more := by
  rw [Filter.paths, List.filter_append, List.map_append, ← Filter.paths, ← Filter.paths]

mutual

/-- A walk that does not come to its end has found the first of the files that are taken. -/
theorem prefix_files_walkNode {above : List Bytes} {name : Bytes}
    (habove : Exclude.clears filter.patterns above = true) (node : FileNode) :
    (walkNode filter (Path.descend root (above ++ [name])) (above ++ [name]) node).files
      <+: filter.paths root (FileNode.filesBelow (above ++ [name]) node) := by
  by_cases herror :
      (walkNode filter (Path.descend root (above ++ [name])) (above ++ [name]) node).error = none
  · exact (files_walkNode habove node herror) ▸ List.prefix_rfl
  · rw [walkNode.eq_def] at herror ⊢
    split at herror
    case h_1 hexcludes => exact List.nil_prefix
    case h_2 hexcludes => exact absurd rfl herror
    case h_3 hexcludes =>
      have hclears : Exclude.clears filter.patterns (above ++ [name]) = true := by
        rw [Exclude.clears_append, habove, hexcludes]
        rfl
      match node with
      | .directory entries => exact prefix_files_walkEntries hclears entries
      | .file content =>
        dsimp only at herror
        split at herror <;> exact absurd rfl herror

/-- What a walk through entries has found when it ends is a beginning of all that it would find. -/
theorem prefix_files_walkEntries {names : List Bytes}
    (hnames : Exclude.clears filter.patterns names = true) :
    (entries : List (Bytes × FileNode)) →
      (walkEntries filter (Path.descend root names) names entries).files
        <+: filter.paths root (FileNode.filesIn names entries)
  | [] => List.nil_prefix
  | (name, node) :: entries => by
    rw [walkEntries, ← Path.descend_append, FileNode.filesIn, paths_append]
    by_cases herror :
        (walkNode filter (Path.descend root (names ++ [name])) (names ++ [name]) node).error = none
    · rw [Walk.andThen, herror, files_walkNode hnames node herror]
      exact (List.prefix_append_right_inj _).2 (prefix_files_walkEntries hnames entries)
    · rw [Walk.andThen_of_isSome herror]
      exact (prefix_files_walkNode hnames node).trans (List.prefix_append _ _)

end

theorem paths_eq (filter : Filter) (root : Bytes) (files : List (List Bytes × Bytes)) :
    filter.paths root files
      = ((files.filter (filter.takes root)).map (·.1)).map (Path.descend root) := by
  rw [Filter.paths, List.map_map]
  rfl

/-- **What a walk finds**: a beginning of the listing, and all of it if the walk comes to its
end. -/
theorem exists_found (filter : Filter) (root : Bytes)
    (h : (FileNode.directory entries).InOrder) :
    ∃ files found, IsListing filter root entries files ∧ found <+: files ∧
      (walkEntries filter root [] entries).files = found.map (Path.descend root) ∧
      ((walkEntries filter root [] entries).error = none → found = files) := by
  have hprefix : (walkEntries filter root [] entries).files
      <+: filter.paths root (FileNode.filesIn [] entries) :=
    @prefix_files_walkEntries filter root [] rfl entries
  have hend : (walkEntries filter root [] entries).error = none →
      (walkEntries filter root [] entries).files
        = filter.paths root (FileNode.filesIn [] entries) :=
    @files_walkEntries filter root [] rfl entries
  rw [paths_eq] at hprefix hend
  refine ⟨_, _, isListing_filesIn filter root h, List.take_prefix _ _,
    (List.prefix_iff_eq_take.1 hprefix).trans List.map_take.symm, fun herror ↦ ?_⟩
  rw [hend herror, List.length_map, List.take_length]

/-! ### What an argument contributes -/

/-- What an argument contributes to the targets. -/
inductive Contributes (w : Workspace) (filter : Filter) : Bytes → List Target → Prop
  | stdin : Contributes w filter stdinArgument [stdin]
  | missing {path : Bytes} {e : AccessError} (hpath : path ≠ stdinArgument)
      (hstat : w.stat path = .error e) : Contributes w filter path []
  | file {path content : Bytes} (hpath : path ≠ stdinArgument)
      (hstat : w.stat path = .ok (.file content)) : Contributes w filter path [ofFile path]
  /-- All that is listed is found if the patterns can be tried on all that is in the directory. -/
  | directory {path : Bytes} {entries : List (Bytes × FileNode)} {files found : List (List Bytes)}
      (hpath : path ≠ stdinArgument) (hstat : w.stat path = .ok (.directory entries))
      (hfiles : IsListing filter (Path.clean path) entries files) (hfound : found <+: files)
      (hall : (∀ names node, names ≠ [] → (FileNode.directory entries).Holds names node →
        ∃ excluded, Exclude.excludes filter.patterns names = .ok excluded) → found = files) :
      Contributes w filter path
        (found.map fun names ↦ ofFile (Path.descend (Path.clean path) names))

/-- What a path leads to is in order, since the workspace is. -/
theorem inOrder_of_stat {node : FileNode} (h : w.stat path = .ok node) : node.InOrder := by
  unfold Workspace.stat Workspace.node at h
  cases hlocate : w.locate path with
  | error e =>
    rw [hlocate] at h
    cases h
  | ok names =>
    rw [hlocate] at h
    cases hget : w.root.node.get? names with
    | none => simp [Except.bind, hget, Except.mapError] at h
    | some found =>
      simp only [Except.bind, hget, Except.mapError, Except.ok.injEq] at h
      exact h ▸ w.root.inOrder.get? hget

/-- The targets that the walk finds for an argument are those that it contributes. -/
theorem contributes_expandPath (w : Workspace) (filter : Filter) (path : Bytes) :
    Contributes w filter path (expandPath w filter path).targets := by
  unfold expandPath
  split
  case isTrue hpath =>
    obtain rfl := beq_iff_eq.1 hpath
    exact .stdin
  case isFalse hpath =>
    have hpath : path ≠ stdinArgument := fun h ↦ hpath (beq_iff_eq.2 h)
    split
    case h_1 hstat => exact .missing hpath hstat
    case h_2 hstat => exact .file hpath hstat
    case h_3 entries hstat =>
      obtain ⟨files, found, hfiles, hfound, hwalk, hall⟩ :=
        exists_found filter (Path.clean path) (inOrder_of_stat hstat)
      show Contributes w filter path
        ((walkEntries filter (Path.clean path) [] entries).files.map ofFile)
      rw [hwalk, List.map_map]
      exact .directory hpath hstat hfiles hfound fun hdecided ↦
        hall (error_walkEntries entries hdecided)

/-! ### First occurrences -/

/-- Whether two targets have the same name. -/
def sameName (s t : Target) : Bool :=
  s.name == t.name

/-- The loop that leaves out repeated names keeps the first of each, behind those kept before. -/
theorem loop_eq_distinct (targets kept : List Target) :
    List.eraseDupsBy.loop sameName targets kept
      = kept.reverse ++ distinct (kept.map (·.name)) targets := by
  induction targets generalizing kept with
  | nil => simp [List.eraseDupsBy.loop, distinct]
  | cons t targets ih =>
    have hany : kept.any (sameName t) = (kept.map (·.name)).contains t.name := by
      rw [List.contains_eq_any_beq, List.any_map]
      rfl
    rw [List.eraseDupsBy.loop, distinct, hany]
    cases (kept.map (·.name)).contains t.name with
    | true => exact ih kept
    | false => simp [ih]

/-- Keeping the first target of each name is a known operation on lists. -/
theorem distinct_eq (targets : List Target) : distinct [] targets = targets.eraseDupsBy sameName :=
  (loop_eq_distinct targets []).symm

/-- The targets of all arguments follow each other, without those whose names were met before. -/
theorem expandAll_targets (w : Workspace) (filter : Filter) (paths : List Bytes) :
    (expandAll w filter paths).targets
      = ((paths.map fun path ↦ (expandPath w filter path).targets).flatten).eraseDupsBy
        sameName := by
  have hall : (paths.foldr (fun path rest ↦ (expandPath w filter path).append rest)
      .nothing).targets = (paths.map fun path ↦ (expandPath w filter path).targets).flatten := by
    induction paths with
    | nil => rfl
    | cons path paths ih => exact congrArg (_ ++ ·) ih
  rw [← hall, ← distinct_eq]
  rfl

theorem expand_of_error {reason : Exclude.Error} (hpaths : paths ≠ [])
    (h : Exclude.patterns (c.exclude.getD []) = .error reason) : (expand w c paths).targets = [] := by
  simp [expand, hpaths, h]

theorem expand_of_ok {patterns : List Exclude.Pattern} (hpaths : paths ≠ [])
    (h : Exclude.patterns (c.exclude.getD []) = .ok patterns) :
    expand w c paths = expandAll w ⟨patterns, c.extensions.getD []⟩ paths := by
  simp [expand, hpaths, h]

/-! ### Where targets come from -/

/-- What a target of some arguments can be. -/
inductive IsSource (w : Workspace) (c : Config) (paths : List Bytes) : Target → Prop
  | stdin (hpath : stdinArgument ∈ paths) : IsSource w c paths stdin
  | named {path content : Bytes} (hpath : path ∈ paths) (hne : path ≠ stdinArgument)
      (hstat : w.stat path = .ok (.file content)) : IsSource w c paths (ofFile path)
  | below {path : Bytes} {entries : List (Bytes × FileNode)} {names : List Bytes} {content : Bytes}
      {patterns : List Exclude.Pattern} (hpath : path ∈ paths) (hne : path ≠ stdinArgument)
      (hstat : w.stat path = .ok (.directory entries))
      (hholds : (FileNode.directory entries).Holds names (.file content))
      (hextension : Path.extension (Path.descend (Path.clean path) names) ∈ c.extensions.getD [])
      (hpatterns : Exclude.patterns (c.exclude.getD []) = .ok patterns)
      (hexcluded : Exclude.excludes patterns names = .ok false) :
      IsSource w c paths (ofFile (Path.descend (Path.clean path) names))

/-- What an argument contributes has its source there. -/
theorem Contributes.isSource {patterns : List Exclude.Pattern}
    (h : Contributes w ⟨patterns, c.extensions.getD []⟩ path targets)
    (hpatterns : Exclude.patterns (c.exclude.getD []) = .ok patterns) (hpath : path ∈ paths)
    (ht : t ∈ targets) : IsSource w c paths t := by
  cases h with
  | stdin =>
    obtain rfl := List.mem_singleton.1 ht
    exact .stdin hpath
  | missing => cases ht
  | file hstdin hstat =>
    obtain rfl := List.mem_singleton.1 ht
    exact .named hpath hstdin hstat
  | directory hstdin hstat hfiles hfound =>
    obtain ⟨names, hnames, rfl⟩ := List.mem_map.1 ht
    obtain ⟨⟨content, hholds⟩, hextension, hclears⟩ := (hfiles.mem_iff _).1 (hfound.subset hnames)
    have hnames : names ≠ [] := by
      rintro rfl
      cases hholds
    exact .below hpath hstdin hstat hholds hextension hpatterns
      (Exclude.clears_eq_true_iff.1 hclears names hnames (List.prefix_refl _))

/-- Every target of a run has its source in one of the arguments. -/
theorem isSource_of_mem_expand (hpaths : paths ≠ [])
    (ht : t ∈ (expand w c paths).targets) : IsSource w c paths t := by
  cases hpatterns : Exclude.patterns (c.exclude.getD []) with
  | error reason =>
    rw [expand_of_error hpaths hpatterns] at ht
    cases ht
  | ok patterns =>
    rw [expand_of_ok hpaths hpatterns, expandAll_targets, ← distinct_eq] at ht
    obtain ⟨targets, htargets, ht⟩ := List.mem_flatten.1 (mem_distinct ht).1
    obtain ⟨path, hpath, rfl⟩ := List.mem_map.1 htargets
    exact (contributes_expandPath w _ path).isSource hpatterns hpath ht

/-- An argument that does not exist is passed by. -/
theorem expand_of_missing {before after : List Bytes} {e : AccessError}
    (hpath : path ≠ stdinArgument) (hstat : w.stat path = .error e) (hrest : before ++ after ≠ []) :
    (expand w c (before ++ path :: after)).targets = (expand w c (before ++ after)).targets := by
  have hpaths : before ++ path :: after ≠ [] := by simp
  cases hpatterns : Exclude.patterns (c.exclude.getD []) with
  | error reason => rw [expand_of_error hpaths hpatterns, expand_of_error hrest hpatterns]
  | ok patterns =>
    have hnone : (expandPath w ⟨patterns, c.extensions.getD []⟩ path).targets = [] := by
      simp [expandPath, hpath, hstat]
    rw [expand_of_ok hpaths hpatterns, expand_of_ok hrest hpatterns, expandAll_targets,
      expandAll_targets, List.map_append, List.map_append, List.map_cons, hnone,
      List.flatten_append, List.flatten_append, List.flatten_cons, List.nil_append]

/-- **The targets of arguments.** They have different names, and each is standard input, a file that
is named or a file of a directory that is not excluded and has one of the extensions. They stand in
the order in which the arguments contribute them first, and an argument that does not exist
contributes nothing and changes nothing. If the patterns cannot be read there are none. -/
theorem expand_orders (hpaths : paths ≠ []) :
    ((expand w c paths).targets.map (·.name)).Nodup ∧
      (∀ t ∈ (expand w c paths).targets, IsSource w c paths t) ∧
      (∀ patterns, Exclude.patterns (c.exclude.getD []) = .ok patterns →
        ∃ contributions,
          List.Forall₂ (Contributes w ⟨patterns, c.extensions.getD []⟩) paths contributions ∧
          (expand w c paths).targets = contributions.flatten.eraseDupsBy sameName) ∧
      (∀ reason, Exclude.patterns (c.exclude.getD []) = .error reason →
        (expand w c paths).targets = []) ∧
      ∀ before path after e, paths = before ++ path :: after → path ≠ stdinArgument →
        w.stat path = .error e → before ++ after ≠ [] →
        (expand w c (before ++ after)).targets = (expand w c paths).targets := by
  refine ⟨nodup_expand w c paths, fun t ↦ isSource_of_mem_expand hpaths, ?_,
    fun reason ↦ expand_of_error hpaths, ?_⟩
  · intro patterns hpatterns
    refine ⟨_, ?_, (expand_of_ok hpaths hpatterns) ▸ expandAll_targets w _ paths⟩
    exact List.forall₂_map_right_iff.2
      (List.forall₂_same.2 fun path _ ↦ contributes_expandPath w _ path)
  · rintro before path after e rfl hpath hstat hrest
    exact (expand_of_missing hpath hstat hrest).symm

/-- A file is named before its directory, one argument does not exist, and a directory stands before
a file of which its name is the beginning. -/
theorem expand_orders_overlapping :
    let w : Workspace :=
      ⟨.directory (.ofList [(utf8 "p", .directory (.ofList
        [(utf8 "a", .directory (.ofList [(utf8 "x.js", .file [])])), (utf8 "a.js", .file []),
          (utf8 "node_modules", .directory (.ofList [(utf8 "m.js", .file [])]))])),
        (utf8 "q.txt", .file [])]), []⟩
    let paths := ["p/a.js", "none", "-", "p", "q.txt", "p/a/x.js"].map utf8
    let targets :=
      [ofFile (utf8 "p/a.js"), stdin, ofFile (utf8 "p/a/x.js"), ofFile (utf8 "q.txt")]
    paths ≠ [] ∧ (expand w .standard paths).targets = targets ∧
      (targets.map (·.name)).Nodup ∧ (∀ t ∈ targets, IsSource w .standard paths t) ∧
      ∃ patterns contributions,
        Exclude.patterns (Config.standard.exclude.getD []) = .ok patterns ∧
        List.Forall₂ (Contributes w ⟨patterns, Config.standard.extensions.getD []⟩) paths
          contributions ∧
        targets = contributions.flatten.eraseDupsBy sameName := by
  intro w paths targets
  have hpaths : paths ≠ [] := by simp [paths]
  have htargets : (expand w .standard paths).targets = targets := by decide +kernel
  have hread : (Exclude.patterns (Config.standard.exclude.getD [])).isOk = true := by
    decide +kernel
  obtain ⟨hnames, hsources, hcontributions, -, -⟩ := expand_orders (w := w) (c := .standard) hpaths
  rw [htargets] at hnames hsources hcontributions
  cases hpatterns : Exclude.patterns (Config.standard.exclude.getD []) with
  | error reason =>
    rw [hpatterns] at hread
    cases hread
  | ok patterns =>
    obtain ⟨contributions, hall, hfirst⟩ := hcontributions patterns hpatterns
    exact ⟨hpaths, htargets, hnames, hsources, patterns, contributions, rfl, hall, hfirst⟩

/-! ### Files and standard input -/

/-- The target of an argument that is no directory. -/
def ofArgument (path : Bytes) : Target :=
  if path = stdinArgument then stdin else ofFile path

/-- Among arguments that are files or standard input, the first of each name is a target. -/
theorem expand_files {patterns : List Exclude.Pattern} (hpaths : paths ≠ [])
    (hpatterns : Exclude.patterns (c.exclude.getD []) = .ok patterns)
    (hfiles : ∀ path ∈ paths, path ≠ stdinArgument → ∃ content, w.stat path = .ok (.file content)) :
    (expand w c paths).targets = (paths.map ofArgument).eraseDupsBy sameName := by
  have hone : ∀ path ∈ paths,
      (expandPath w ⟨patterns, c.extensions.getD []⟩ path).targets = [ofArgument path] := by
    intro path hpath
    by_cases hstdin : path = stdinArgument
    · simp [expandPath, ofArgument, hstdin]
    · obtain ⟨content, hstat⟩ := hfiles path hpath hstdin
      simp [expandPath, ofArgument, hstdin, hstat]
  rw [expand_of_ok hpaths hpatterns, expandAll_targets, List.map_congr_left hone,
    ← List.flatMap_def, ← List.map_eq_flatMap]

/-- **No argument is lost** among files and standard input, unless standard input meets a file of
the name that it is reported under. -/
theorem mem_expand_files {patterns : List Exclude.Pattern} (hpaths : paths ≠ [])
    (hpatterns : Exclude.patterns (c.exclude.getD []) = .ok patterns)
    (hfiles : ∀ path ∈ paths, path ≠ stdinArgument → ∃ content, w.stat path = .ok (.file content))
    (hnames : stdinArgument ∈ paths → stdinName ∉ paths) :
    t ∈ (expand w c paths).targets ↔ ∃ path ∈ paths, ofArgument path = t := by
  rw [expand_files hpaths hpatterns hfiles, ← distinct_eq, ← List.mem_map]
  refine ⟨fun h ↦ (mem_distinct h).1, fun h ↦ ?_⟩
  obtain ⟨s, hs, hname⟩ := exists_mem_distinct h List.not_mem_nil
  obtain ⟨path, hpath, rfl⟩ := List.mem_map.1 (mem_distinct hs).1
  obtain ⟨path', hpath', rfl⟩ := List.mem_map.1 h
  suffices heq : ofArgument path = ofArgument path' from heq ▸ hs
  by_cases hstdin : path = stdinArgument <;> by_cases hstdin' : path' = stdinArgument
  · rw [hstdin, hstdin']
  · simp only [ofArgument, if_pos hstdin, if_neg hstdin'] at hname
    obtain rfl : stdinName = path' := hname
    exact absurd hpath' (hnames (hstdin ▸ hpath))
  · simp only [ofArgument, if_neg hstdin, if_pos hstdin'] at hname
    obtain rfl : path = stdinName := hname
    exact absurd hpath (hnames (hstdin' ▸ hpath'))
  · simp only [ofArgument, if_neg hstdin, if_neg hstdin'] at hname ⊢
    obtain rfl : path = path' := hname
    rfl

/-- A file of the name of standard input and standard input are not told apart: the one that comes
first is the only target. -/
theorem expand_files_stdinName :
    let w : Workspace := ⟨.directory (.ofList [(stdinName, .file [])]), []⟩
    (expand w .standard [stdinArgument, stdinName]).targets = [stdin] ∧
      (expand w .standard [stdinName, stdinArgument]).targets = [ofFile stdinName] := by
  decide +kernel

end Target

end ColonGap
