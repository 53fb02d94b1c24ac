import TaggedComments.Command.AssociationOption
import TaggedComments.Command.Help
import TaggedComments.Command.Option
import TaggedComments.Config.Basic

/-!
# Invocations

The program has three commands: one scans files or a text, one renders lists of comments, and one
lists the known extensions. Options override what the configuration of the project says.

- `Invocation` is what the program is asked to do.
- `Invocation.ofWords` reads it from the words of a command line; otherwise it says which page of
  the help to show, or what is wrong.
- `Overrides.apply` are the settings that are in force.
-/

namespace TaggedComments

/-- Settings that options override. -/
structure Overrides where
  /-- The report. -/
  reporter : Option String := none
  /-- Further tags, separated by commas. -/
  tags : Option String := none
  /-- Further patterns of paths to leave out. -/
  ignore : List String := []
  /-- Further associations; none in place of two hyphens that were dropped. -/
  associate : List (Option String) := []
  /-- Whether the parsers of included extensions apply. -/
  inlineFiles : Bool := false
  /-- Whether files with unknown extensions are left out. -/
  skipUnsupported : Bool := false
  /-- Whether comments that were found do not make the exit code one. -/
  exitNicely : Bool := false
  deriving DecidableEq

/-- A command. -/
inductive Command where
  /-- Scan paths, or a text of a file type and a name. -/
  | scan (paths : List String) (fileType : Option String) (textName : Data)
  /-- Render lists of comments in files. -/
  | report (files : List String)
  /-- List the known extensions, for readers or as JSON. -/
  | extensions (asJson : Bool)
  deriving DecidableEq

/-- What the program is asked to do. -/
structure Invocation where
  /-- The directory of the project; none in place of two hyphens that were dropped. -/
  project : Option String
  /-- Whether every log entry is shown. -/
  verbose : Bool
  /-- What options override. -/
  overrides : Overrides
  /-- The command. -/
  command : Command
  deriving DecidableEq

/-- Why nothing is done. -/
inductive Stop where
  /-- A page of the help is asked for. -/
  | help (page : HelpPage)
  /-- No command is given. -/
  | noCommand
  /-- The command line is malformed. -/
  | usage (page : HelpPage) (message : String)
  deriving DecidableEq

namespace Overrides

/-- The tags between commas, trimmed; empty ones do not count. -/
def tagNames (tags : String) : List String :=
  (((Text.splitString ',' tags).map Text.trimString).filter (!·.isEmpty))

/-- The settings of a project with what options override: lists are continued, associations are set
again, switches are turned on. -/
def apply (o : Overrides) (c : Config) : Except Failure Config := do
  let associations ← AssociationOption.readGiven o.associate
  return {
    tags := c.tags ++ (o.tags.map tagNames).getD []
    ignore := c.ignore ++ o.ignore
    associate := Data.putAll c.associate associations
    reporter := o.reporter.getD c.reporter
    inlineFiles := c.inlineFiles || o.inlineFiles
    skipUnsupported := c.skipUnsupported || o.skipUnsupported
    exitNicely := c.exitNicely || o.exitNicely }

end Overrides

namespace Invocation

/-! ## What the commands take -/

/-- The option that asks for help. -/
def helpOption : OptionSpec where
  key := "help"
  spellings := ["-h", "--help"]

/-- The option that chooses the report. -/
def reporterOption : OptionSpec where
  key := "reporter"
  spellings := ["--reporter", "-r"]
  takesValue := true
  choices := ["json", "markdown", "raw", "table", "xml"]

/-- The option that keeps the exit code at zero. -/
def exitOption : OptionSpec where
  key := "exit_nicely"
  spellings := ["--exit-nicely", "-x"]

/-- An option with a value. -/
def valued (key : String) (spellings : List String) : OptionSpec where
  key := key
  spellings := spellings
  takesValue := true

/-- An option without a value. -/
def switch (key : String) (spellings : List String) : OptionSpec where
  key := key
  spellings := spellings

/-- What the program takes. -/
def programTable : OptionTable where
  options :=
    [helpOption, valued "project" ["--project", "-p"], switch "verbose" ["--verbose", "-v"]]
  operands := .command

/-- What the scan command takes. -/
def scanTable : OptionTable where
  options := [helpOption, reporterOption, valued "tags" ["--tags", "-t"],
    valued "ignore" ["--ignore", "-i"], valued "associate" ["--associate", "-A"],
    valued "filetype" ["--filetype", "-f"], valued "stdin_name" ["--stdin-name"],
    switch "inline_files" ["--inline-files", "-I"],
    switch "skip_unsupported" ["--skip-unsupported", "-S"], exitOption]
  operands := .list

/-- What the report command takes. -/
def reportTable : OptionTable where
  options := [helpOption, reporterOption, exitOption]
  operands := .list

/-- What the command that lists extensions takes. -/
def extensionsTable : OptionTable where
  options := [helpOption, switch "json" ["--json", "-j"]]
  operands := .none

/-- The names of the commands. -/
def commandNames : List String := ["scan", "report", "extensions"]

/-- What a command takes, and its page. -/
def tableOf? : String → Option (OptionTable × HelpPage)
  | "scan" => some (scanTable, .scan)
  | "report" => some (reportTable, .report)
  | "extensions" => some (extensionsTable, .extensions)
  | _ => none

/-! ## Reading -/

/-- The last setting of an option. -/
def lastSetting (r : Reading) (key : String) : Option Setting :=
  ((r.settings.filter fun s => s.1 = key).getLast?).map (·.2)

/-- The text that an option was set to last; none if that was dropped. -/
def lastText (r : Reading) (key : String) : Option String :=
  (lastSetting r key).bind textOf
where
  /-- The text of a setting. -/
  textOf : Setting → Option String
    | .text value => some value
    | _ => none

/-- All texts that an option was set to, and none for each that was dropped. -/
def allTexts (r : Reading) (key : String) : List (Option String) :=
  (r.settings.filter fun s => s.1 = key).map fun s => lastText.textOf s.2

/-- Whether an option is given. -/
def isOn (r : Reading) (key : String) : Bool :=
  r.settings.any fun s => s.1 = key

/-- What the options of a command override. -/
def overridesOf (r : Reading) : Overrides where
  reporter := lastText r "reporter"
  tags := lastText r "tags"
  ignore := (allTexts r "ignore").filterMap id
  associate := allTexts r "associate"
  inlineFiles := isOn r "inline_files"
  skipUnsupported := isOn r "skip_unsupported"
  exitNicely := isOn r "exit_nicely"

/-- The name of the text to scan: an empty list if it was dropped. -/
def textNameOf (r : Reading) : Data :=
  match lastSetting r "stdin_name" with
  | some (.text name) => .text name
  | some _ => .list []
  | none => .null

/-- The command of a name. -/
def commandOf (name : String) (r : Reading) : Command :=
  match name with
  | "scan" => .scan r.operands (lastText r "filetype") (textNameOf r)
  | "report" => .report r.operands
  | _ => .extensions (isOn r "json")

/-- A fault on the page of a command. -/
def stopAt (page : HelpPage) : OptionFault → Stop
  | .help => .help page
  | .usage m => .usage page m

/-- Words without a place are refused by the program. -/
def checkExtras (extras : List String) : Except Stop Unit :=
  if extras.isEmpty then .ok ()
  else .error (.usage .program ("unrecognized arguments: " ++ " ".intercalate extras))

/-- Read the words of a command line. -/
def ofWords (words : List String) : Except Stop Invocation := do
  let outer ← (programTable.read words).mapError (stopAt .program)
  match outer.command with
  | none =>
    checkExtras outer.extras
    .error .noCommand
  | some [] => .error .noCommand
  | some (name :: rest) =>
    match tableOf? name with
    | none =>
      .error (stopAt .program (invalidChoice "argument command: " name commandNames))
    | some (table, page) =>
      let r ← (table.read rest).mapError (stopAt page)
      checkExtras (outer.extras ++ r.extras)
      return {
        project := if isOn outer "project" then lastText outer "project" else some "."
        verbose := isOn outer "verbose"
        overrides := overridesOf r
        command := commandOf name r }

end Invocation

end TaggedComments
