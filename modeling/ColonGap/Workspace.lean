import ColonGap.FileTree
import ColonGap.Path

/-!
# Workspaces

A workspace is a file tree with a working directory in it. A path is followed name by name, as
an operating system does it: a name that is followed needs a directory to stand in, also when it
is `.` or empty, so a slash at the end of a path asks for a directory. Names have a greatest
length, and so have paths.

A file can be refused to a writer, and writing can stop before all is written: what the file system
says to a text for a path is given from outside (`WriteFaults`).
-/

namespace ColonGap

/-- Why a path cannot be used. -/
inductive PathError where
  | notFound
  | notDirectory
  | isDirectory
  | tooLong
  | invalid
deriving DecidableEq, Repr

/-- The wording of a path error. -/
def PathError.message : PathError → String
  | notFound => "no such file or directory"
  | notDirectory => "not a directory"
  | isDirectory => "is a directory"
  | tooLong => "file name too long"
  | invalid => "invalid argument"

/-- What was tried with a path. -/
inductive Access where
  | stat
  | openFile
  | read
  | write
  | close
deriving DecidableEq, Repr

/-- The name of an access in messages. -/
def Access.name : Access → String
  | stat => "stat"
  | openFile => "open"
  | read => "read"
  | write => "write"
  | close => "close"

/-- A path that could not be used, what was tried with it, and what went wrong. -/
structure AccessError where
  access : Access
  path : Bytes
  cause : PathError
deriving DecidableEq, Repr

/-- The wording of an access error. -/
def AccessError.message (e : AccessError) : Bytes :=
  utf8 e.access.name ++ utf8 " " ++ e.path ++ utf8 ": " ++ utf8 e.cause.message

/-- What keeps a file from being written, with the words of the file system. A file that cannot be
opened keeps its content. One that is opened is emptied, so where writing stops it holds the bytes
that were written until then. -/
inductive WriteFault where
  | unopened (cause : Bytes)
  | stopped (written : Nat) (cause : Bytes)
  /-- All has been written, but the file cannot be closed. -/
  | unclosed (cause : Bytes)
deriving DecidableEq, Repr

namespace WriteFault

/-- What was tried with the file. -/
def access : WriteFault → Access
  | unopened _ => .openFile
  | stopped _ _ => .write
  | unclosed _ => .close

/-- What the file system says. -/
def cause : WriteFault → Bytes
  | unopened cause | stopped _ cause | unclosed cause => cause

/-- The wording of a fault of a file. -/
def message (path : Bytes) (fault : WriteFault) : Bytes :=
  utf8 fault.access.name ++ utf8 " " ++ path ++ utf8 ": " ++ fault.cause

/-- What a file holds instead of a text that was to be written, if it does not hold what it held. -/
def written? (content : Bytes) : WriteFault → Option Bytes
  | unopened _ => none
  | stopped written _ => some (content.take written)
  | unclosed _ => some content

end WriteFault

/-- What the file system says to a text that is to be written to a path: nothing if it takes it. -/
abbrev WriteFaults := (path content : Bytes) → Option WriteFault

/-- The file system takes everything. -/
def WriteFaults.none : WriteFaults := fun _ _ ↦ .none

/-- A file tree with a working directory. -/
structure Workspace where
  root : FileTree
  /-- The names that lead from the root to the working directory. -/
  directory : List Bytes
deriving Inhabited

namespace Workspace

/-- The greatest length of a name. -/
def maxNameLength : Nat := 255

/-- The greatest length of a path. -/
def maxPathLength : Nat := 4095

/-- The path of the working directory. -/
def directoryPath (w : Workspace) : Bytes :=
  47 :: Bytes.join [47] w.directory

/-- Follow one name from the node that the names `place` lead to. -/
def step (root : FileNode) (place : List Bytes) (name : Bytes) : Except PathError (List Bytes) :=
  match root.get? place with
  | none => .error .notFound
  | some (.file _) => .error .notDirectory
  | some (.directory entries) =>
    if name.isEmpty || name == Path.here then .ok place
    else if name == Path.above then .ok place.dropLast
    else if name.length > maxNameLength then .error .tooLong
    else if (Entries.get? name entries).isSome then .ok (place ++ [name])
    else .error .notFound

/-- Where a path leads: names from the root to an existing node. -/
def locate (w : Workspace) (path : Bytes) : Except PathError (List Bytes) :=
  if path.contains 0 then .error .invalid
  else if path.isEmpty then .error .notFound
  else if path.length > maxPathLength then .error .tooLong
  else (Path.names path).foldlM (step w.root.node) (if Path.isRooted path then [] else w.directory)

/-- The file or directory of a path. -/
def node (w : Workspace) (path : Bytes) : Except PathError FileNode :=
  (w.locate path).bind fun names ↦
    match w.root.node.get? names with
    | some node => .ok node
    | none => .error .notFound

/-- Ask what a path leads to. -/
def stat (w : Workspace) (path : Bytes) : Except AccessError FileNode :=
  (w.node path).mapError fun cause ↦ ⟨.stat, path, cause⟩

/-- The content of a file. -/
def read (w : Workspace) (path : Bytes) : Except AccessError Bytes :=
  match w.node path with
  | .error cause => .error ⟨.openFile, path, cause⟩
  | .ok (.file content) => .ok content
  | .ok (.directory _) => .error ⟨.read, path, .isDirectory⟩

/-- Replace the content of a file. A path that leads nowhere changes nothing. -/
def write (w : Workspace) (path : Bytes) (content : Bytes) : Workspace :=
  match w.locate path with
  | .error _ => w
  | .ok names => { w with root := FileTree.put (.file content) names w.root }

/-- Write a text to a file, as far as the file system takes it, and tell what kept it from taking
all. -/
def store (w : Workspace) (faults : WriteFaults) (path content : Bytes) :
    Workspace × Option WriteFault :=
  match faults path content with
  | none => (w.write path content, none)
  | some fault => ((fault.written? content).elim w (w.write path), some fault)

end Workspace

end ColonGap
