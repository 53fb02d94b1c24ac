import TaggedComments.Aggregate
import TaggedComments.Registry.Builtin

/-!
# Requests

A request to take the comments out of one text. It is answered in steps: the request itself is
checked; its associations are merged into the registry, where they stay; the extension is
resolved to parsers; the parsers run. The first step that fails ends the request.

- `Request` is a request with options of any kind, `Request.check` its check.
- `Registry.answer` answers a request and gives the registry afterwards.
-/

namespace TaggedComments

/-- A request. Nothing guarantees the kinds of its parts. -/
structure Request where
  /-- The text. -/
  content : Data := .text ""
  /-- The extension of its file. -/
  extension : Data := .text ""
  /-- The name of its file. -/
  file : Data := .null
  /-- Associations to merge into the registry. -/
  associations : Data := .null
  /-- Tags besides the builtin ones. -/
  customTags : Data := .null
  /-- Whether the parsers of included extensions apply: what counts as true. -/
  embedded : Data := .bool false
  /-- Parsers that count before the builtin ones. -/
  overrides : Catalogue := []

namespace Request

/-- The parts of a request that passed the check. -/
structure Checked where
  /-- The text. -/
  content : String
  /-- The extension. -/
  extension : String
  /-- The custom tags. -/
  tags : List String
  deriving DecidableEq

/-- The extension of a request: a text that is not empty. -/
def readExtension : Data → Except Failure String
  | .text s => if s.isEmpty then .error .extensionMissing else .ok s
  | _ => .error .extensionMissing

/-- The text of a request. -/
def readContent : Data → Except Failure String
  | .text s => .ok s
  | _ => .error .contentNotText

/-- Check a request: its extension, its text, its tags. -/
def check (q : Request) : Except Failure Checked := do
  let extension ← readExtension q.extension
  let content ← readContent q.content
  let tags ← Tags.validate q.customTags
  return ⟨content, extension, tags⟩

/-- The source of the log entry of a request. -/
def logSource : String := "todoscan.core.engine"

/-- Run the parsers that a registry names for a checked request. -/
def run (q : Request) (c : Checked) (r : Registry) : Traced (List Comment) :=
  match r.activeParsers c.extension q.embedded.truthy with
  | .error e => .fail e
  | .ok names =>
    (Aggregate.runParsers q.overrides Catalogue.builtin (c.tags.map .text) names c.content
      q.file).after [⟨.debug, logSource, c.extension ++ ": active parsers "
        ++ (Data.list (names.map .text)).literal⟩]

end Request

/-- Answer a request: the registry afterwards, and the comments or the failure. -/
def Registry.answer (r : Registry) (q : Request) : Registry × Traced (List Comment) :=
  match q.check with
  | .error e => (r, .fail e)
  | .ok c =>
    match r.register q.associations with
    | .error e => (r, .fail e)
    | .ok (r', log) => (r', (q.run c r').after log)

end TaggedComments
