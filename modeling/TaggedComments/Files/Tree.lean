import TaggedComments.Failure
import TaggedComments.Files.Path

/-!
# File trees

A file system is a tree of directories and files together with the working directory. There are
no links, so every file has one place.

- `Tree` is a tree, `FileSystem` a file system; `Tree.graft` puts trees together.
- `FileSystem.locate` follows names one by one: each has to be an entry of a directory.
- `FileSystem.resolve` is the place that a path means, whether something is there or not.
- `FileSystem.read` are the bytes of a file.
-/

namespace TaggedComments

/-- A directory with its entries, or a file with its bytes. -/
inductive Tree where
  /-- A file. -/
  | file (bytes : List Nat)
  /-- A directory; no name occurs twice. -/
  | directory (entries : List (String × Tree))
  deriving Inhabited

namespace Tree

/-- Whether the tree is a directory. -/
def isDirectory : Tree → Bool
  | file _ => false
  | directory _ => true

/-- The entries of a directory. -/
def entries : Tree → List (String × Tree)
  | file _ => []
  | directory es => es

/-- The tree with another tree put at the end of names; what is missing on the way is made. -/
def graft (branch : Tree) : List String → Tree → Tree
  | [], _ => branch
  | n :: ns, t =>
    let old := (t.entries.lookup n).getD (directory [])
    let put := (n, graft branch ns old)
    directory (if (t.entries.lookup n).isSome
      then t.entries.map fun e => if e.1 = n then put else e
      else t.entries ++ [put])

end Tree

/-- A file system. -/
structure FileSystem where
  /-- The root directory. -/
  root : Tree
  /-- The names on the way from the root to the working directory. -/
  working : List String

/-- Why nothing is at a path. -/
inductive Absence where
  /-- A name is no entry of its directory. -/
  | missing
  /-- The way leads through a file. -/
  | throughFile
  deriving DecidableEq

namespace FileSystem

/-- A place: what is there and the directories around it, the innermost first. -/
abbrev Place := Tree × List Tree

/-- The place one step further. A point stays, two points lead to the directory around. -/
def step (place : Place) (name : String) : Except Absence Place :=
  match place.1 with
  | .file _ => .error .throughFile
  | .directory es =>
    if name = "" ∨ name = "." then .ok place
    else if name = ".." then
      match place.2 with
      | [] => .ok place
      | t :: around => .ok (t, around)
    else
      match es.lookup name with
      | some t => .ok (t, place.1 :: place.2)
      | none => .error .missing

/-- The place of the working directory. -/
def workingPlace (fs : FileSystem) : Except Absence Place :=
  fs.working.foldlM step (fs.root, [])

/-- What is at the end of names that start at the root or at the working directory. -/
def locate (fs : FileSystem) (absolute : Bool) (names : List String) : Except Absence Tree := do
  let start ← if absolute then .ok (fs.root, []) else fs.workingPlace
  let place ← names.foldlM step start
  return place.1

/-- What is at a path. -/
def find (fs : FileSystem) (p : Path) : Except Absence Tree :=
  fs.locate p.isAbsolute p.names

/-- Whether a path leads to a directory. -/
def isDirectory (fs : FileSystem) (p : Path) : Bool :=
  match fs.find p with
  | .ok t => t.isDirectory
  | .error _ => false

/-- Whether a path leads to a file. -/
def isFile (fs : FileSystem) (p : Path) : Bool :=
  match fs.find p with
  | .ok t => !t.isDirectory
  | .error _ => false

/-- The names on the way from the root to the place that a path means. -/
def resolve (fs : FileSystem) (p : Path) : List String :=
  Path.normalize (if p.isAbsolute then [] else fs.working) p.names

/-- The path from the root to the place that a path means. -/
def resolvePath (fs : FileSystem) (p : Path) : Path :=
  ⟨.root, fs.resolve p⟩

/-- The bytes of a file. -/
def read (fs : FileSystem) (p : Path) : Except Failure (List Nat) :=
  match fs.find p with
  | .ok (.file bytes) => .ok bytes
  | .ok (.directory _) => .error (.isDirectory p.display)
  | .error .missing => .error (.noSuchFile p.display)
  | .error .throughFile => .error (.notDirectory p.display)

end FileSystem

end TaggedComments
