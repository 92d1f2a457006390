import ColonGap.Config.Basic
import ColonGap.Exclude
import ColonGap.Log
import ColonGap.Workspace

/-!
# Targets

A target is one source to lint: a file or standard input. The arguments of a run are expanded in
order. A file that is named is always a target; a directory stands for the files below it that
have one of the configured extensions and are not excluded. Directories are walked depth first
in the order of names, and an excluded directory is not entered. Patterns see the path of an
entry relative to the directory that is walked.
-/

namespace ColonGap

/-- A source to lint. -/
structure Target where
  /-- The path of the file, or the name that stands for standard input. -/
  name : Bytes
  isStdin : Bool
deriving DecidableEq, Repr

namespace Target

/-- The name under which standard input is reported. -/
def stdinName : Bytes := utf8 "<stdin>"

/-- Standard input. -/
def stdin : Target := ⟨stdinName, true⟩

/-- A file. -/
def ofFile (path : Bytes) : Target := ⟨path, false⟩

/-- The argument that stands for standard input. -/
def stdinArgument : Bytes := utf8 "-"

/-- What to take from directories. -/
structure Filter where
  patterns : List Exclude.Pattern
  extensions : List Bytes

/-- What was found on a walk, up to the end or up to an error. -/
structure Walk where
  files : List Bytes
  log : List Log.Entry
  error : Option Exclude.Error

namespace Walk

/-- A walk that found nothing. -/
def nothing : Walk := ⟨[], [], none⟩

/-- Continue with a further walk unless there was an error. -/
def andThen (first second : Walk) : Walk :=
  match first.error with
  | some _ => first
  | none => ⟨first.files ++ second.files, first.log ++ second.log, second.error⟩

end Walk

mutual

/-- Walk an entry with the given path, which the given names lead to from the directory that is
walked. -/
def walkNode (filter : Filter) (path : Bytes) (names : List Bytes) (node : FileNode) : Walk :=
  match Exclude.excludes filter.patterns names with
  | .error e => ⟨[], [], some e⟩
  | .ok true => ⟨[], [Log.debug "excluded" [("path", .text path)]], none⟩
  | .ok false =>
    match node with
    | .directory entries => walkEntries filter path names entries
    | .file _ =>
      if filter.extensions.contains (Path.extension path) then ⟨[path], [], none⟩ else .nothing

/-- Walk the entries of a directory. -/
def walkEntries (filter : Filter) (directory : Bytes) (names : List Bytes) :
    List (Bytes × FileNode) → Walk
  | [] => .nothing
  | (name, node) :: entries =>
    (walkNode filter (Path.child directory name) (names ++ [name]) node).andThen
      (walkEntries filter directory names entries)

end

/-- The targets of some arguments. -/
structure Expansion where
  targets : List Target
  log : List Log.Entry
  /-- Whether something could not be read. -/
  failed : Bool

namespace Expansion

/-- The expansion of no arguments. -/
def nothing : Expansion := ⟨[], [], false⟩

/-- One expansion after the other. -/
def append (first second : Expansion) : Expansion :=
  ⟨first.targets ++ second.targets, first.log ++ second.log, first.failed || second.failed⟩

end Expansion

/-- Expand one argument. -/
def expandPath (w : Workspace) (filter : Filter) (path : Bytes) : Expansion :=
  if path == stdinArgument then ⟨[stdin], [], false⟩
  else
    match w.stat path with
    | .error e =>
      ⟨[], [Log.error "reading path" [("path", .text path), ("error", .reason e.message)]], true⟩
    | .ok (.file _) => ⟨[ofFile path], [], false⟩
    | .ok (.directory entries) =>
      let walk := walkEntries filter (Path.clean path) [] entries
      let failure := walk.error.map fun e ↦
        Log.error "walking directory" [("path", .text path), ("error", .reason (utf8 e.message))]
      ⟨walk.files.map ofFile, walk.log ++ failure.toList, walk.error.isSome⟩

/-- The targets in order, of those with the same name only the first. -/
def distinct (seen : List Bytes) : List Target → List Target
  | [] => []
  | t :: targets =>
    if seen.contains t.name then distinct seen targets
    else t :: distinct (t.name :: seen) targets

/-- Expand arguments in order. -/
def expandAll (w : Workspace) (filter : Filter) (paths : List Bytes) : Expansion :=
  let all := paths.foldr (fun path rest ↦ (expandPath w filter path).append rest) .nothing
  { all with targets := distinct [] all.targets }

/-- The targets of a run. Without arguments it is standard input. -/
def expand (w : Workspace) (c : Config) (paths : List Bytes) : Expansion :=
  if paths.isEmpty then ⟨[stdin], [], false⟩
  else
    match Exclude.patterns (c.exclude.getD []) with
    | .error e =>
      ⟨[], [Log.error "invalid exclude pattern" [("error", .reason (utf8 e.message))]], true⟩
    | .ok patterns => expandAll w ⟨patterns, c.extensions.getD []⟩ paths

end Target

end ColonGap
