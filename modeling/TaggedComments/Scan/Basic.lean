import TaggedComments.Config.Basic
import TaggedComments.Request
import TaggedComments.Scan.Discovery
import TaggedComments.Text.Lines
import TaggedComments.Text.Utf8

/-!
# Scans

A scan takes the comments out of files, one file after the other, under the settings of a
project. What is not text in a file is replaced, and every kind of line end counts.

- `Scanner` is a scanner for a project, `Scanner.setUp` sets one up, `Scanner.registryAfter` is the
  registry that this leaves behind.
- `Scanner.textComments` are the comments of one text, `Scanner.fileComments` those of one file.
- `Scanner.scanFiles` are the comments of files, `Scanner.scan` those of what arguments give.
-/

namespace TaggedComments

/-- A scanner for a project. -/
structure Scanner where
  /-- The settings of the project. -/
  config : Config
  /-- The parsers by extension. -/
  registry : Registry
  /-- How files are found. -/
  discovery : Discovery

namespace Scanner

/-- The source of the log entries of scans. -/
def logSource : String := "todoscan.core.scanner"

/-- Set a scanner up: its ignore rules are read, then the associations of the project are merged
into the registry. -/
def setUp (config : Config) (registry : Registry) (system : FileSystem) (root : Path) :
    Traced Scanner :=
  match IgnoreRules.ofPatterns config.ignore with
  | .error e => .fail e
  | .ok rules =>
    match registry.register (.mapping config.associate) with
    | .error e => .fail e
    | .ok (registry, log) => ⟨log, .ok ⟨config, registry, system, system.resolve root, rules⟩⟩

/-- The registry after a scanner was set up on it: a failure leaves the registry as it was. -/
def registryAfter (before : Registry) (prepared : Traced Scanner) : Registry :=
  match prepared.result with
  | .ok s => s.registry
  | .error _ => before

/-- The request that a text makes under settings. -/
def request (config : Config) (content extension file : Data) : Request where
  content := content
  extension := extension
  file := file
  customTags := if config.tags.isEmpty then .null else .list (config.tags.map .text)
  embedded := .bool config.inlineFiles

/-- The comments of a text. -/
def textComments (s : Scanner) (content extension file : Data) : Traced (List Comment) :=
  (s.registry.answer (request s.config content extension file)).2

/-- The text of the bytes of a file. -/
def textOf (bytes : List Nat) : String :=
  String.ofList (Text.unifyLineEnds (Text.Utf8.decodeLossy bytes))

/-- The comments of a file with its bytes. -/
def fileComments (s : Scanner) (file : Path × List Nat) : Traced (List Comment) :=
  s.textComments (.text (textOf file.2)) (.text file.1.suffix) (.text file.1.display)

/-- The entry for a file that is left out. -/
def skipped (p : Path) : LogEntry :=
  ⟨.warning, logSource, "Skipping unsupported file: " ++ p.display⟩

/-- The files to read, and an entry for each that is left out because no parser is known for it. -/
def selectFiles (s : Scanner) (files : List Path) : Traced (List Path) :=
  if s.config.skipUnsupported then
    let known (p : Path) : Bool := s.registry.supports p.suffix
    ⟨(files.filter (!known ·)).map skipped, .ok (files.filter known)⟩
  else pure files

/-- The comments of several files with their bytes. -/
def allComments (s : Scanner) : List (Path × List Nat) → Traced (List Comment)
  | [] => pure []
  | f :: fs => do
    let own ← s.fileComments f
    let more ← s.allComments fs
    return own ++ more

/-- The summary of a scan. -/
def summary (files comments : Nat) : String :=
  "Scanned " ++ toString files ++ " file(s), found " ++ toString comments ++ " item(s)"

/-- The comments of files; all are read before the first is parsed. -/
def scanFiles (s : Scanner) (files : List Path) : Traced (List Comment) := do
  let files ← s.selectFiles files
  let contents ← Traced.ofExcept (files.mapM fun p =>
    (s.discovery.system.read p).map fun bytes => (p, bytes))
  let found ← s.allComments contents
  Traced.note .info logSource (summary files.length found.length)
  return found

/-- The comments of what arguments give. -/
def scan (s : Scanner) (arguments : List String) : Traced (List Comment) :=
  s.scanFiles (s.discovery.files arguments)

end Scanner

end TaggedComments
