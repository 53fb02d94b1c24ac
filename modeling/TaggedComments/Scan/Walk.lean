import TaggedComments.Files.Tree

/-!
# Walks

A directory is walked in a fixed order: its own files by name, then its directories by name, each
with everything below it.

- `Walk` says which directories are entered and which files are taken.
- `Walk.files` are the files of a walk.
- `Walk.isSkippedName` are the directories that no walk enters.
-/

namespace TaggedComments

/-- Which directories a walk enters and which files it takes. -/
structure Walk where
  /-- Whether the walk enters the directory at a path. -/
  enters : Path → Bool
  /-- Whether the walk takes the file at a path. -/
  takes : Path → Bool

namespace Walk

/-- The names of directories that are never entered: what tools put next to the sources. -/
def skippedNames : List String := [
  "__pycache__", ".git", ".hg", ".svn", "node_modules", ".venv", "venv", "env", "build", "dist",
  ".eggs", ".mypy_cache", ".pytest_cache", ".tox", ".nox"]

/-- Whether directories of this name are never entered. -/
def isSkippedName (name : String) : Bool :=
  skippedNames.contains name || name.endsWith ".egg-info"

/-- Named things in code point order of their names. -/
def byName {α : Type} (xs : List (String × α)) : List (String × α) :=
  xs.mergeSort fun a b => a.1 ≤ b.1

/-- The files of a directory that a walk takes. -/
def ownFiles (w : Walk) (path : Path) (entries : List (String × Tree)) : List Path :=
  ((byName (entries.filter fun e => !e.2.isDirectory)).map fun e => path.child e.1).filter w.takes

mutual

/-- The files that a walk takes at and below a path. -/
def files (w : Walk) (path : Path) : Tree → List Path
  | .file _ => []
  | .directory es =>
    w.ownFiles path es ++ (byName (fromEntries w path es)).flatMap (·.2)
termination_by structural t => t

/-- The files below those entries of a directory that a walk enters, by the names of the entries. -/
def fromEntries (w : Walk) (path : Path) : List (String × Tree) → List (String × List Path)
  | [] => []
  | (n, t) :: es =>
    let more := fromEntries w path es
    if t.isDirectory && !isSkippedName n && w.enters (path.child n) then
      (n, files w (path.child n) t) :: more
    else more
termination_by structural es => es

end

end Walk

end TaggedComments
