import ColonGap.Config.Parse
import ColonGap.Workspace

/-!
# Loading configurations

A configuration is read from the file of the given path. Without a path the working directory is
searched for one of four names, and without such a file the standard configuration holds.
-/

namespace ColonGap

namespace Config

/-- Why no configuration could be loaded. -/
inductive LoadError where
  /-- There is no such file. -/
  | notFound (path : Bytes)
  /-- The file cannot be read. -/
  | unreadable (path : Bytes) (error : AccessError)
  /-- The file does not hold a configuration. -/
  | rejected (path : Bytes) (error : ParseError)

/-- The wording of a load error. -/
def LoadError.message : LoadError → Bytes
  | notFound path => utf8 "config file not found: " ++ path
  | unreadable path error => utf8 "reading config file " ++ path ++ utf8 ": " ++ error.message
  | rejected path error => utf8 "config file " ++ path ++ utf8 ": " ++ error.message

/-- The names under which a configuration is searched for, in this order. -/
def fileNames : List Bytes :=
  [utf8 "colonlint.yml", utf8 "colonlint.yaml", utf8 ".colonlint.yml", utf8 ".colonlint.yaml"]

/-- The path of the first configuration in the working directory. A directory of that name is
found too. -/
def discover? (w : Workspace) : Option Bytes :=
  (fileNames.map fun name ↦ Path.child w.directoryPath name).find? fun path ↦ (w.stat path).isOk

/-- Load the configuration of a path. -/
def loadFile (w : Workspace) (path : Bytes) : Except LoadError Config :=
  match w.read path with
  | .error e => .error (if e.cause == .notFound then .notFound path else .unreadable path e)
  | .ok text => (parse text).mapError (.rejected path)

/-- Load the configuration of a path, or the one that is found if the path is empty. -/
def load (w : Workspace) (path : Bytes) : Except LoadError Config :=
  if path.isEmpty then
    match discover? w with
    | some found => loadFile w found
    | none => .ok standard
  else loadFile w path

end Config

end ColonGap
