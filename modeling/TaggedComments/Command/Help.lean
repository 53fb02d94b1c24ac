/-!
# Help

Every command has a page: how it is called, and what its words mean.

- `HelpPage` is a page, `HelpPage.text` the whole of it and `HelpPage.usageText` its first block.
- `HelpPage.program`, `HelpPage.scan`, `HelpPage.report` and `HelpPage.extensions` are the pages.
-/

namespace TaggedComments

/-- What is said about a command. -/
structure HelpPage where
  /-- The name of the program and of the command. -/
  title : String
  /-- How the command is called, by lines. -/
  usage : List String
  /-- What its words mean, by lines. -/
  body : List String
  deriving DecidableEq

namespace HelpPage

/-- Lines, each with its end. -/
def lines (ls : List String) : String :=
  String.join (ls.map (· ++ "\n"))

/-- How the command is called. -/
def usageText (p : HelpPage) : String :=
  lines p.usage

/-- The whole page. -/
def text (p : HelpPage) : String :=
  p.usageText ++ "\n" ++ lines p.body

/-- What is said about a malformed command line. -/
def complaint (p : HelpPage) (message : String) : String :=
  p.usageText ++ p.title ++ ": error: " ++ message ++ "\n"

/-- The page of the program. -/
def program : HelpPage where
  title := "todoscan"
  usage := [
    "usage: todoscan [-h] [--project PROJECT] [--verbose]",
    "                \x7bscan,report,extensions\x7d ..."]
  body := [
    "Find TODO/FIXME and custom tagged comments in source files",
    "",
    "positional arguments:",
    "  \x7bscan,report,extensions\x7d",
    "                        Available commands",
    "    scan                Parse files and report tagged comments",
    "    report              Render JSON todo lists",
    "    extensions          List supported extensions",
    "",
    "options:",
    "  -h, --help            show this help message and exit",
    "  --project PROJECT, -p PROJECT",
    "                        Directory holding .todoscan.yaml (default: current",
    "                        dir)",
    "  --verbose, -v         Enable debug logging"]

/-- The page of the scan command. -/
def scan : HelpPage where
  title := "todoscan scan"
  usage := [
    "usage: todoscan scan [-h] [--reporter \x7bjson,markdown,raw,table,xml\x7d]",
    "                     [--tags TAGS] [--ignore IGNORE] [--associate ASSOCIATE]",
    "                     [--filetype FILETYPE] [--stdin-name STDIN_NAME]",
    "                     [--inline-files] [--skip-unsupported] [--exit-nicely]",
    "                     [paths ...]"]
  body := [
    "positional arguments:",
    "  paths                 Files, directories or glob patterns",
    "",
    "options:",
    "  -h, --help            show this help message and exit",
    "  --reporter \x7bjson,markdown,raw,table,xml\x7d, -r \x7bjson,markdown,raw,table,xml\x7d",
    "  --tags TAGS, -t TAGS  Comma-separated list of extra tags",
    "  --ignore IGNORE, -i IGNORE",
    "                        Gitignore-style pattern to skip",
    "  --associate ASSOCIATE, -A ASSOCIATE",
    "                        Associate .ext=parser[+parser]",
    "  --filetype FILETYPE, -f FILETYPE",
    "                        Extension used to parse stdin (e.g. .js)",
    "  --stdin-name STDIN_NAME",
    "                        Filename reported for stdin content",
    "  --inline-files, -I    Also parse embedded sections",
    "  --skip-unsupported, -S",
    "                        Skip unsupported files",
    "  --exit-nicely, -x     Exit 0 even if todos are found"]

/-- The page of the report command. -/
def report : HelpPage where
  title := "todoscan report"
  usage := [
    "usage: todoscan report [-h] [--reporter \x7bjson,markdown,raw,table,xml\x7d]",
    "                       [--exit-nicely]",
    "                       [files ...]"]
  body := [
    "positional arguments:",
    "  files                 JSON files produced by 'scan -r json'",
    "",
    "options:",
    "  -h, --help            show this help message and exit",
    "  --reporter \x7bjson,markdown,raw,table,xml\x7d, -r \x7bjson,markdown,raw,table,xml\x7d",
    "  --exit-nicely, -x     Exit 0 even if todos are found"]

/-- The page of the command that lists extensions. -/
def extensions : HelpPage where
  title := "todoscan extensions"
  usage := [
    "usage: todoscan extensions [-h] [--json]"]
  body := [
    "options:",
    "  -h, --help  show this help message and exit",
    "  --json, -j  Output as JSON"]

end HelpPage

end TaggedComments
