import TaggedComments.Data.Access

/-!
# Project configuration

What a project may set: further tags, paths to ignore, associations, the report, and three
switches of a scan.

- `Config` is a configuration; its defaults are those of a project that sets nothing.
- `Config.ofData` reads one from a mapping, `Config.toData` writes the settings that differ from
  the defaults.
-/

namespace TaggedComments

/-- The settings of a project. -/
structure Config where
  /-- Tags besides the builtin ones. -/
  tags : List String := []
  /-- Patterns of paths to leave out. -/
  ignore : List String := []
  /-- Associations of extensions. -/
  associate : List (Data × Data) := []
  /-- The name of the report. -/
  reporter : String := "table"
  /-- Whether the parsers of included extensions apply. -/
  inlineFiles : Bool := false
  /-- Whether files with unknown extensions are left out. -/
  skipUnsupported : Bool := false
  /-- Whether comments that were found do not make the exit code one. -/
  exitNicely : Bool := false
  deriving DecidableEq

namespace Data

/-- The two parts of an item of a list of entries. -/
def asEntry (index : Nat) (d : Data) : Except Failure (Data × Data) := do
  match ← d.elements with
  | [k, v] => if k.isKey then .ok (k, v) else .error .wrongKind
  | xs => .error (.badPair index xs.length)

/-- The entries of a mapping, or of a list of entries set one after another. -/
def asEntries (d : Data) : Except Failure (List (Data × Data)) :=
  match d.asMapping? with
  | some es => .ok es
  | none => do
    let items ← d.elements
    let added ← items.zipIdx.mapM fun x => x.1.asEntry x.2
    return putAll [] added

end Data

namespace Config

/-- The elements of a setting as they are displayed; what counts as false has none. -/
def readNames (setting : Option Data) : Except Failure (List String) :=
  match setting with
  | none => .ok []
  | some d => if d.truthy then do (← d.elements).mapM Data.shown else .ok []

/-- The entries of a setting; what counts as false has none. -/
def readEntries (setting : Option Data) : Except Failure (List (Data × Data)) :=
  match setting with
  | none => .ok []
  | some d => if d.truthy then d.asEntries else .ok []

/-- A switch: whether its setting counts as true. -/
def readSwitch (scan : Data) (key : String) : Except Failure Bool :=
  (scan.field key).map fun d => (d.getD (.bool false)).truthy

/-- Read a configuration. -/
def ofData (d : Data) : Except Failure Config := do
  let scan ← d.field "scan"
  let scan := (scan.getD .null).orElse (.mapping [])
  let tags ← readNames (d.get? "tags")
  let ignore ← readNames (d.get? "ignore")
  let associate ← readEntries (d.get? "associate")
  let reporter ← ((d.get? "reporter").getD (.text "table")).shown
  let inlineFiles ← readSwitch scan "inline_files"
  let skipUnsupported ← readSwitch scan "skip_unsupported"
  let exitNicely ← readSwitch scan "exit_nicely"
  return { tags, ignore, associate, reporter, inlineFiles, skipUnsupported, exitNicely }

/-- A setting, unless it is the default. -/
def setting (key : String) (differs : Bool) (d : Data) : List (Data × Data) :=
  if differs then [(.text key, d)] else []

/-- The switches that are on. -/
def switches (c : Config) : List (Data × Data) :=
  setting "inline_files" c.inlineFiles (.bool true)
    ++ setting "skip_unsupported" c.skipUnsupported (.bool true)
    ++ setting "exit_nicely" c.exitNicely (.bool true)

/-- The settings that differ from the defaults. -/
def toData (c : Config) : Data :=
  .mapping (setting "tags" (!c.tags.isEmpty) (.list (c.tags.map .text))
    ++ setting "ignore" (!c.ignore.isEmpty) (.list (c.ignore.map .text))
    ++ setting "associate" (!c.associate.isEmpty) (.mapping c.associate)
    ++ setting "reporter" (c.reporter != "table") (.text c.reporter)
    ++ setting "scan" (!c.switches.isEmpty) (.mapping c.switches))

end Config

end TaggedComments
