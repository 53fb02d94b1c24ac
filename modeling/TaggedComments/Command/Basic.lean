import TaggedComments.Command.Invocation
import TaggedComments.Config.File
import TaggedComments.Json.Reader
import TaggedComments.Report.Basic
import TaggedComments.Scan.Basic

/-!
# Commands

What the program does when it is called: it loads the settings of the project, lets options
override them, carries its command out, and prints a report. The registry that a call leaves
behind serves the next one.

- `Environment` is what a call sees of the world, `Answer` what a command says.
- `Invocation.run` carries an invocation out.
- `CallResult` is what a call shows: its exit code, its output, its messages.
- `callProgram` is a whole call, from the words of the command line on.
-/

namespace TaggedComments

/-- What a call sees of the world. -/
structure Environment where
  /-- The files. -/
  system : FileSystem
  /-- The bytes of the standard input; none if it is a terminal. -/
  input : Option (List Nat)

/-- What a command says. -/
inductive Answer where
  /-- A text and the exit code. -/
  | printed (text : String) (code : Nat)
  /-- There is nothing to work on. -/
  | unusable (message : String)
  deriving DecidableEq

/-- What a call shows. A failure that is not reported takes the place of the exit code. -/
structure CallResult where
  /-- The exit code. -/
  status : Except Failure Nat
  /-- The standard output. -/
  output : String
  /-- The messages on the standard error. -/
  messages : String

/-- Whether a failure is reported to the user: those of malformed input are, values of a wrong kind
where none is expected are not. -/
def Failure.isReported : Failure → Bool
  | .parserFailed _ | .unknownWord _ | .emptyNumber | .endless | .wrongKind | .noSuchPart
  | .tooLarge | .badRange => false
  | _ => true

namespace Command

/-- The text of bytes that have to be text. -/
def decodeText (bytes : List Nat) : Except Failure String :=
  (Text.Utf8.decode bytes).map fun cs => String.ofList (Text.unifyLineEnds cs)

/-- The exit code: one if comments were found, unless the settings keep it at zero. -/
def exitCode (c : Config) (found : List Comment) : Nat :=
  if c.exitNicely || found.isEmpty then 0 else 1

/-- The report of comments under settings. -/
def reportOf (c : Config) (found : List Comment) : Except Failure Answer :=
  (Report.render (found.map .comment) (.text c.reporter)).map fun text =>
    .printed (text ++ "\n") (exitCode c found)

/-- The extension of a file type, whose point may be left out. -/
def extensionOf (fileType : String) : String :=
  if fileType.startsWith "." then fileType else "." ++ fileType

/-- Scan paths. -/
def scanPaths (s : Scanner) (paths : List String) : Traced Answer :=
  let files := s.discovery.files paths
  if files.isEmpty then pure (.unusable "No files found for reporting")
  else do
    let found ← s.scanFiles files
    Traced.ofExcept (reportOf s.config found)

/-- Scan the standard input. -/
def scanInput (s : Scanner) (input : Option (List Nat)) (fileType : Option String)
    (textName : Data) : Traced Answer :=
  match input with
  | none => pure (.unusable "No input: pass file paths or pipe content with --filetype")
  | some bytes =>
    match fileType.getD "" with
    | "" => pure (.unusable "--filetype is required when reading from stdin")
    | fileType => do
      let text ← Traced.ofExcept (decodeText bytes)
      let found ← s.textComments (.text text) (.text (extensionOf fileType)) textName
      Traced.ofExcept (reportOf s.config found)

/-- The comments in a list of objects. -/
def commentsOf (text : String) : Except Failure (List Comment) := do
  match ← Json.read text with
  | .list items =>
    if items.all fun d => d.asMapping?.isSome then items.mapM Comment.ofData
    else .error .reportNotList
  | _ => .error .reportNotList

/-- Render lists of comments. All files are read before the first is looked at. -/
def reportFiles (c : Config) (env : Environment) (files : List String) : Except Failure Answer := do
  let texts ← files.mapM fun f => do
    let bytes ← env.system.read (Path.ofString f)
    decodeText bytes
  let found ← texts.mapM commentsOf
  reportOf c found.flatten

/-- Render the list of comments in the standard input. -/
def reportInput (c : Config) : Option (List Nat) → Except Failure Answer
  | none => .ok (.unusable "No input: pass JSON files or pipe JSON into stdin")
  | some bytes => do
    let text ← decodeText bytes
    let found ← commentsOf text
    reportOf c found

/-- The entries of a registry by extension. -/
def sortedEntries (r : Registry) : List (String × Entry String) :=
  r.entries.mergeSort fun a b => a.1 ≤ b.1

/-- An entry on a line. -/
def entryLine (extension : String) (e : Entry String) : String :=
  "  " ++ extension ++ String.ofList (List.replicate (12 - extension.length) ' ') ++ " "
    ++ ", ".intercalate e.parsers
    ++ (if e.included.isEmpty then "" else "  (inline: " ++ ", ".intercalate e.included ++ ")")

/-- The list of the known extensions. -/
def extensionList (r : Registry) (asJson : Bool) : String :=
  if asJson then
    Json.write (.mapping ((sortedEntries r).map fun x => (.text x.1, x.2.asData.toData))) ++ "\n"
  else String.join ((sortedEntries r).map fun x => entryLine x.1 x.2 ++ "\n")

/-- Carry a command out under settings: the registry afterwards, and what the command says. -/
def run (c : Config) (env : Environment) (registry : Registry) (project : Path) :
    Command → Registry × Traced Answer
  | .scan paths fileType textName =>
    let prepared := Scanner.setUp c registry env.system project
    (Scanner.registryAfter registry prepared, match prepared.result with
      | .error e => ⟨prepared.log, .error e⟩
      | .ok s => (if paths.isEmpty then scanInput s env.input fileType textName
          else scanPaths s paths).after prepared.log)
  | .report files =>
    (registry, .ofExcept (if files.isEmpty then reportInput c env.input
      else reportFiles c env files))
  | .extensions asJson =>
    match registry.register (.mapping c.associate) with
    | .error e => (registry, .fail e)
    | .ok (r, log) => (r, ⟨log, .ok (.printed (extensionList r asJson) 0)⟩)

end Command

namespace Invocation

/-- The settings that are in force in a project. -/
def config (i : Invocation) (system : FileSystem) (project : Path) : Traced Config := do
  let c ← Config.load system project
  Traced.ofExcept (i.overrides.apply c)

/-- The paths that the invocation looks at; nothing outside of them is read. -/
def places (i : Invocation) : List Path :=
  let operands := match i.command with
    | .scan paths _ _ => paths.map fun p =>
      if NamePattern.isMagic p then (Glob.ofString p).front else p
    | .report files => files
    | .extensions _ => []
  match i.project with
  | none => []
  | some project =>
    Config.fileNames.map (Path.ofString project).child ++ operands.map Path.ofString

/-- Whether the invocation works on the standard input. -/
def readsInput (i : Invocation) : Bool :=
  match i.command with
  | .scan paths _ _ => paths.isEmpty
  | .report files => files.isEmpty
  | .extensions _ => false

/-- Carry an invocation out: the registry afterwards, and what the command says. -/
def run (i : Invocation) (env : Environment) (registry : Registry) : Registry × Traced Answer :=
  match i.project with
  | none => (registry, .fail .wrongKind)
  | some project =>
    let project := Path.ofString project
    let c := i.config env.system project
    match c.result with
    | .error e => (registry, ⟨c.log, .error e⟩)
    | .ok config =>
      let (r, answer) := i.command.run config env registry project
      (r, answer.after c.log)

end Invocation

namespace CallResult

/-- The lines of the log that are shown: warnings, or everything. -/
def logText (verbose : Bool) (log : List LogEntry) : String :=
  HelpPage.lines ((log.filter fun e => verbose || e.level = .warning).map LogEntry.text)

/-- What a call shows of the answer of its command. -/
def ofAnswer (verbose : Bool) (answer : Traced Answer) : CallResult :=
  let log := logText verbose answer.log
  match answer.result with
  | .ok (.printed text code) => ⟨.ok code, text, log⟩
  | .ok (.unusable message) => ⟨.ok 1, "", log ++ message ++ "\n"⟩
  | .error e =>
    if e.isReported then ⟨.ok 1, "", log ++ "error: " ++ e.message.getD "" ++ "\n"⟩
    else ⟨.error e, "", log⟩

/-- What a call shows when nothing is done. -/
def ofStop : Stop → CallResult
  | .help page => ⟨.ok 0, page.text, ""⟩
  | .noCommand => ⟨.ok 1, HelpPage.program.text, ""⟩
  | .usage page message => ⟨.ok 2, "", page.complaint message⟩

end CallResult

/-- A call of the program: the registry afterwards, and what the call shows. -/
def callProgram (env : Environment) (registry : Registry) (words : List String) :
    Registry × CallResult :=
  match Invocation.ofWords words with
  | .error stop => (registry, .ofStop stop)
  | .ok i =>
    let (r, answer) := i.run env registry
    (r, .ofAnswer i.verbose answer)

end TaggedComments
