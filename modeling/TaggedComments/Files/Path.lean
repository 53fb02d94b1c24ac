import TaggedComments.Text.Split

/-!
# Paths

A path names a file by the names of the directories on the way to it. It starts at the root of the
file system or at the working directory.

- `Path` is a path without empty names and without single points.
- `Path.ofString` reads a path, `Path.display` writes it.
- `Path.suffix` is the extension of a path.
-/

namespace TaggedComments

/-- Where a path starts. -/
inductive PathStart where
  /-- At the working directory. -/
  | here
  /-- At the root, written with one slash. -/
  | root
  /-- At the root, written with two slashes. -/
  | twoSlashes
  deriving DecidableEq

/-- A path. -/
structure Path where
  /-- Where it starts. -/
  start : PathStart
  /-- The names on the way, the name of the file last. -/
  names : List String
  deriving DecidableEq

namespace Path

/-- How the start of a path is written. -/
def startText : PathStart → String
  | .here => ""
  | .root => "/"
  | .twoSlashes => "//"

/-- Where a written path starts: three and more slashes count as one. -/
def startOf : List Char → PathStart
  | '/' :: '/' :: '/' :: _ => .root
  | '/' :: '/' :: _ => .twoSlashes
  | '/' :: _ => .root
  | _ => .here

/-- Whether a piece between two slashes is a name on the way. -/
def isName (s : String) : Bool :=
  s != "" && s != "."

/-- Read a path: empty pieces and single points between slashes do not count. -/
def ofString (s : String) : Path :=
  ⟨startOf s.toList, (Text.splitString '/' s).filter isName⟩

/-- A path in writing: a single point stands for the working directory. -/
def display (p : Path) : String :=
  if p.start = .here ∧ p.names = [] then "."
  else startText p.start ++ "/".intercalate p.names

/-- The path of an entry of a directory. -/
def child (p : Path) (name : String) : Path :=
  { p with names := p.names ++ [name] }

/-- The last name. -/
def name (p : Path) : String :=
  p.names.getLastD ""

/-- The extension of a file name: from its last point on, unless that is its first or its last
character. -/
def suffixOf (name : List Char) : List Char :=
  let extension := (name.reverse.takeWhile (· != '.')).reverse
  if 0 < extension.length && extension.length + 1 < name.length then '.' :: extension else []

/-- The extension of a path. -/
def suffix (p : Path) : String :=
  String.ofList (suffixOf p.name.toList)

/-- Whether the path starts at the root. -/
def isAbsolute (p : Path) : Bool :=
  p.start != .here

/-- Names with the steps to the parent carried out; the root is its own parent. -/
def normalize (from_ names : List String) : List String :=
  names.foldl (fun way n => if n = ".." then way.dropLast else way ++ [n]) from_

end Path

end TaggedComments
