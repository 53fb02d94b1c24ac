import TaggedComments.Config.Basic
import TaggedComments.Files.Tree
import TaggedComments.Log
import TaggedComments.Yaml.Value

/-!
# Configuration files

A project keeps its settings in a file of one of two names. A file that cannot be read or is not
YAML, and one that holds no mapping, is passed over with a warning.

- `Config.fileNames` are the names, the first one found counts.
- `Config.ofBytes` reads settings from the bytes of a file.
- `Config.load` are the settings of a project.
-/

namespace TaggedComments.Config

/-- The names of the configuration file. -/
def fileNames : List String := [".todoscan.yaml", ".todoscan.yml"]

/-- The source of the log entries of configurations. -/
def logSource : String := "todoscan.config"

/-- The default settings, with a warning. -/
def passOver (message : String) : Traced Config :=
  ⟨[⟨.warning, logSource, message⟩], .ok {}⟩

/-- What is logged about a file that cannot be read. -/
def unreadable (path : Path) : String :=
  "Ignoring unreadable config " ++ path.display

/-- What is logged about a file without a mapping. -/
def notMapping (path : Path) : String :=
  "Ignoring config " ++ path.display ++ ": expected a mapping"

/-- The settings in the bytes of a file. -/
def ofBytes (path : Path) (bytes : List Nat) : Traced Config :=
  match Yaml.read bytes with
  | .error .malformed => passOver (unreadable path)
  | .error (.failure e) => .fail e
  | .ok d =>
    let d := d.orElse (.mapping [])
    if d.asMapping?.isSome then .ofExcept (ofData d) else passOver (notMapping path)

/-- The settings in a file. -/
def ofFile (system : FileSystem) (path : Path) : Traced Config :=
  match system.read path with
  | .error _ => passOver (unreadable path)
  | .ok bytes => ofBytes path bytes

/-- The settings of a project: the defaults if it has no configuration file. -/
def load (system : FileSystem) (project : Path) : Traced Config :=
  let paths := fileNames.map (system.resolvePath project).child
  match paths.find? fun p => (system.find p).toOption.isSome with
  | none => pure {}
  | some p => ofFile system p

end TaggedComments.Config
