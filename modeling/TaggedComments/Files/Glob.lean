import TaggedComments.Files.NamePattern
import TaggedComments.Files.Tree
import TaggedComments.Text.Blank

/-!
# Patterns of paths

A path may be written with patterns for its names. Two stars alone stand for a directory and
everything below it, hidden names aside.

- `Glob` is a written path: a fixed front part and the names after it.
- `FileSystem.expand` are the paths that fit, in code point order.
-/

namespace TaggedComments

/-- A path with patterns. -/
structure Glob where
  /-- The front part up to the first pattern. -/
  front : String
  /-- The names after it; the last one is empty if only directories are meant. -/
  names : List String

namespace Glob

/-- Two stars. -/
def deep : String := "**"

/-- Slashes at the end of a front part are dropped, unless there is nothing else. -/
def trimFront (s : List Char) : List Char :=
  if s.all (· == '/') then s else Text.dropRightWhile (· == '/') s

/-- The empty names dropped, except the last one. -/
def dropEmpty : List String → List String
  | [] => []
  | [n] => [n]
  | n :: ns => if n = "" then dropEmpty ns else n :: dropEmpty ns

/-- Take a written path apart. -/
def ofString (s : String) : Glob :=
  let pieces := Text.splitString '/' s
  let fixed := pieces.takeWhile fun n => !NamePattern.isMagic n
  let after := pieces.drop fixed.length
  let front := String.join (fixed.map (· ++ "/"))
  ⟨String.ofList (trimFront front.toList), dropEmpty after⟩

/-- A path followed by a name. -/
def join (path name : String) : String :=
  if path = "" || path.endsWith "/" then path ++ name else path ++ "/" ++ name

mutual

/-- The paths below a tree whose names are not hidden, seen from it. -/
def below (directories : Bool) : Tree → List String
  | .file _ => []
  | .directory es => belowEntries directories es
termination_by structural t => t

/-- The paths of entries and of what is below them. -/
def belowEntries (directories : Bool) : List (String × Tree) → List String
  | [] => []
  | (n, t) :: es =>
    (if (directories && !t.isDirectory) || n.toList.head? == some '.' then []
      else n :: (below directories t).map (n ++ "/" ++ ·)) ++ belowEntries directories es
termination_by structural es => es

end

end Glob

namespace FileSystem

/-- What is at a written path; nothing written is the working directory. -/
def atText (fs : FileSystem) (path : String) : Except Absence Tree :=
  if path = "" then fs.locate false []
  else fs.locate (path.toList.head? == some '/') (Text.splitString '/' path)

/-- The continuations of a path by a name that fit: patterns give the names of entries, a fixed
name has to be there, and the empty name asks for a directory. Before other names only
directories fit a pattern. -/
def continuations (fs : FileSystem) (directories : Bool) (name path : String) : List String :=
  let tree := (fs.atText path).toOption
  if name = Glob.deep then
    match tree with
    | some (.directory es) => "" :: Glob.belowEntries directories es
    | _ => []
  else if NamePattern.isMagic name then
    match tree with
    | some (.directory es) =>
      (es.filter fun e => (!directories || e.2.isDirectory) && NamePattern.accepts name e.1).map
        (·.1)
    | _ => []
  else if name = "" then
    if path != "" && (tree.map Tree.isDirectory).getD false then [""] else []
  else
    match fs.atText (Glob.join path name) with
    | .ok _ => [name]
    | .error _ => []

/-- The paths that fit names after given paths. -/
def expandNames (fs : FileSystem) : List String → List String → List String
  | [], paths => paths
  | n :: ns, paths =>
    expandNames fs ns (paths.flatMap fun p =>
      (fs.continuations (!ns.isEmpty) n p).map (Glob.join p))

/-- The written paths that fit a pattern, in code point order. The working directory itself does
not fit a pattern that starts with two stars. -/
def expand (fs : FileSystem) (pattern : String) : List String :=
  let g := Glob.ofString pattern
  let found := fs.expandNames g.names [g.front]
  let found :=
    if pattern.startsWith Glob.deep && found.head? == some "" then found.drop 1 else found
  found.mergeSort fun a b => a ≤ b

end FileSystem

end TaggedComments
