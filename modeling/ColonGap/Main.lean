import ColonGap.CommandLine

/-!
# The program

The program takes a picture of the part of the file system that its arguments name, carries the
command line out on that picture, and then writes what came of it: the texts, the changed files
and the exit code.
-/

namespace ColonGap

namespace Program

/-- The text of some bytes; bytes that are not UTF-8 have none. -/
def string? (s : Bytes) : Option String :=
  String.fromUTF8? ⟨s.toArray⟩

/-- The file or directory of a path, if there is one. -/
partial def snapshot (path : String) : IO (Option FileTree) := do
  let place := (← IO.currentDir) / path
  unless ← place.pathExists do return none
  unless ← place.isDir do return some (.file (← IO.FS.readBinFile place).toList)
  let mut entries : KeyedList FileTree := .empty
  for entry in ← place.readDir do
    if let some node ← snapshot entry.path.toString then
      entries := entries.put (utf8 entry.fileName) node
  return some (.directory entries)

/-- The names that lead from the root to a path. -/
def namesOf (directory : List Bytes) (path : Bytes) : List Bytes :=
  let names := if Path.isRooted path then Path.names path else directory ++ Path.names path
  (names.foldl (Path.push true) []).reverse

/-- Add what a path leads to. -/
def addPath (w : Workspace) (path : Bytes) : IO Workspace := do
  let some text := string? path | return w
  let some node ← snapshot text | return w
  return { w with root := FileTree.put node (namesOf w.directory path) w.root }

/-- The paths that a command line may look at: the configurations and the arguments that are not
flags or that are values of flags. -/
def pathsOf (arguments : List Bytes) : List Bytes :=
  match CommandLine.readArguments (CommandLine.command arguments).1.flags false arguments with
  | .error _ => []
  | .ok a => Config.fileNames ++ a.values .config ++ a.others

/-- Whether a command line may read standard input. -/
def readsStdin (arguments : List Bytes) : Bool :=
  match CommandLine.readArguments (CommandLine.command arguments).1.flags false arguments with
  | .error _ => false
  | .ok a => a.others.isEmpty || a.others.contains Target.stdinArgument

/-- All that is left in a stream. -/
partial def readAll (stream : IO.FS.Stream) (before : ByteArray) : IO ByteArray := do
  let chunk ← stream.read 65536
  if chunk.isEmpty then return before else readAll stream (before ++ chunk)

/-- Write the files that a run changed. -/
def writeChanges (before after : Workspace) : IO Unit :=
  for (names, content) in before.root.changes after.root do
    if let some path := string? (47 :: Bytes.join [47] names) then
      IO.FS.writeBinFile path ⟨content.toArray⟩

end Program

end ColonGap

open ColonGap in
/-- Carry out the command line of the program. -/
def main (args : List String) : IO UInt32 := do
  let arguments := args.map utf8
  let directory := Path.names (utf8 (← IO.currentDir).toString)
  let start : Workspace := ⟨.empty, directory.filter fun name ↦ !name.isEmpty⟩
  let start := { start with root := FileTree.put .empty start.directory start.root }
  let workspace ← (Program.pathsOf arguments).foldlM Program.addPath start
  let stdin ←
    if Program.readsStdin arguments then Program.readAll (← IO.getStdin) .empty else pure .empty
  let env : Run.Environment := ⟨workspace, .ok stdin.toList, none, false, .none⟩
  let outcome := CommandLine.execute .builtin env arguments
  Program.writeChanges workspace outcome.workspace
  (← IO.getStdout).write ⟨outcome.stdout.toArray⟩
  (← IO.getStderr).write ⟨outcome.stderr.toArray⟩
  return outcome.exit.code.toUInt32
