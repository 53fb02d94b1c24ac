import TaggedComments.Distinct
import TaggedComments.Files.Glob
import TaggedComments.Files.IgnoreRule
import TaggedComments.Scan.Walk

/-!
# Finding files

A scan is given files, directories and patterns of paths. Directories are walked, patterns give
the paths that fit; what the ignore rules leave out is not found, and no path is found twice.

- `Discovery` is a file system seen from a project with its ignore rules.
- `Discovery.isIgnored` says whether a path is left out.
- `Discovery.filesOf` are the files that one argument gives, `Discovery.files` those of several.
-/

namespace TaggedComments

/-- Where and under which rules files are looked for. -/
structure Discovery where
  /-- The file system. -/
  system : FileSystem
  /-- The names on the way from the root to the project. -/
  project : List String
  /-- The rules of the project. -/
  rules : IgnoreRules

namespace Discovery

/-- The names of a way after another way that it starts with. -/
def relativeTo? : (base names : List String) → Option (List String)
  | [], names => some names
  | b :: bs, n :: ns => if b = n then relativeTo? bs ns else none
  | _ :: _, [] => none

/-- How the rules see a path: from the project if it lies below it, else as it is written. -/
def ruleView (d : Discovery) (p : Path) : String :=
  match relativeTo? d.project (d.system.resolve p) with
  | some names => (Path.mk .here names).display
  | none => p.display

/-- Whether the rules leave a path out. -/
def isIgnored (d : Discovery) (p : Path) : Bool :=
  d.rules.ignores (d.ruleView p)

/-- The walk that keeps to the rules. -/
def walk (d : Discovery) : Walk where
  enters p := !d.isIgnored p
  takes p := !d.isIgnored p

/-- The files that one path gives. -/
def filesAt (d : Discovery) (p : Path) : List Path :=
  match d.system.find p with
  | .ok (.directory es) => d.walk.files p (.directory es)
  | .ok (.file _) => if d.isIgnored p then [] else [p]
  | .error _ => []

/-- The paths that an argument means. -/
def candidates (d : Discovery) (argument : String) : List Path :=
  if NamePattern.isMagic argument then (d.system.expand argument).map Path.ofString
  else [Path.ofString argument]

/-- The files that one argument gives. -/
def filesOf (d : Discovery) (argument : String) : List Path :=
  (d.candidates argument).flatMap d.filesAt

/-- The files that arguments give, each path once. -/
def files (d : Discovery) (arguments : List String) : List Path :=
  distinct (arguments.flatMap d.filesOf)

end Discovery

end TaggedComments
